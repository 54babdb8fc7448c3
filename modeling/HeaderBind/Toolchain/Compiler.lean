import HeaderBind.Toolchain.SearchList
import HeaderBind.Journal
import HeaderBind.Text.Quoted
/-!
Asking compilers for their system include directories. The first compiler that lists any is believed;
one that cannot be run is passed over.
-/
namespace HeaderBind.Compiler

/-- What comes of running a compiler. -/
inductive Run where
  | missing
  | timedOut
  /-- It ended, and this is what it told. -/
  | told (text : String)
  deriving DecidableEq

/-- Compilers asked unless others are named. -/
def usual : List String := ["clang", "gcc", "cc"]

/-- The command that makes a compiler tell its include directories. -/
def command (name : String) : List String := [name, "-v", "-E", "-x", "c", "/dev/null"]

/-- Seconds that a compiler has. -/
def patience : Nat := 10

/-- What was asked and found. -/
structure Survey where
  ran : List (List String)
  directories : List String
  events : List Event
  deriving DecidableEq

def trace (level : Level) (message : String) : Event := .trace level Reporter.toolchain message

/-- Why the compiler could not be run. -/
def failure? (name : String) : Run → Option String
  | .missing => some ("[Errno 2] No such file or directory: " ++ Text.quoted name)
  | .timedOut => some ("Command '" ++ Text.quotedList (command name) ++ "' timed out after " ++
      toString patience ++ " seconds")
  | .told _ => none

/-- The survey after a compiler that was of no use. -/
def Survey.after (name : String) (events : List Event) (s : Survey) : Survey :=
  ⟨command name :: s.ran, s.directories, events ++ s.events⟩

/-- Asks the compilers in order until one lists directories. -/
def survey (run : String → Run) : List String → Survey
  | [] => ⟨[], [], [trace .warning "No compiler reported system include directories"]⟩
  | name :: rest =>
    match run name with
    | .told text =>
      let found := SearchList.ofText text
      if found.isEmpty then (survey run rest).after name []
      else ⟨[command name], found,
        [trace .debug ("search paths from " ++ name ++ ": " ++ Text.quotedList found)]⟩
    | refusal =>
      (survey run rest).after name
        [trace .debug ("could not run " ++ name ++ ": " ++ (failure? name refusal).getD "")]

end HeaderBind.Compiler
