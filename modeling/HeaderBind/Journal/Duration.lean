import HeaderBind.Journal
/-! How long a phase took, as the log tells it at the end of the phase. -/
namespace HeaderBind.Journal

/-- Milliseconds as seconds with three places; less than none when the clock was put back. -/
def seconds (milliseconds : Int) : String :=
  let n := milliseconds.natAbs
  let rest := toString (n % 1000)
  (if milliseconds < 0 then "-" else "") ++ toString (n / 1000) ++ "." ++
    String.ofList (List.replicate (3 - rest.length) '0') ++ rest

def finished (phase : String) (milliseconds : Int) : Event :=
  .trace .debug Reporter.clock (phase ++ " finished in " ++ seconds milliseconds ++ "s")

end HeaderBind.Journal
