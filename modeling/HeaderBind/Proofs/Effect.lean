/-! # Steps that may fail and leave something behind -/
namespace HeaderBind.Effect

variable {ε σ α β : Type}

/-- The outcome of steps, and what they leave behind. -/
def exec (x : ExceptT ε (StateM σ) α) (s : σ) : Except ε α × σ := (ExceptT.run x).run s

theorem exec_pure (a : α) (s : σ) : exec (pure a : ExceptT ε (StateM σ) α) s = (.ok a, s) := rfl

theorem exec_throw (e : ε) (s : σ) : exec (throw e : ExceptT ε (StateM σ) α) s = (.error e, s) := rfl

/-- Steps that follow others run where those ended, unless they failed. -/
theorem exec_bind (x : ExceptT ε (StateM σ) α) (f : α → ExceptT ε (StateM σ) β) (s : σ) :
    exec (x >>= f) s = match exec x s with
      | (.ok a, t) => exec (f a) t
      | (.error e, t) => (.error e, t) := by
  unfold exec
  rw [ExceptT.run_bind, StateT.run_bind]
  change (match (ExceptT.run x).run s with | (a, t) => _) = _
  rcases (ExceptT.run x).run s with ⟨_ | _, _⟩ <;> rfl

/-- Steps that are followed by others whether or not they fail. Where the others fail, that is how both
end. -/
theorem exec_tryFinally (x : ExceptT ε (StateM σ) α) (y : ExceptT ε (StateM σ) Unit) (s : σ) :
    exec (tryFinally x y) s = match exec x s with
      | (outcome, u) => match exec y u with
        | (.ok _, v) => (outcome, v)
        | (.error e, v) => (.error e, v) := by
  unfold exec ExceptT.run StateT.run tryFinally
  simp only [tryFinally', Functor.map, ExceptT.map, ExceptT.mk, bind, StateT.bind]
  rcases x s with ⟨e | a, u⟩ <;> rcases done : y u with ⟨e' | _, v⟩ <;> simp only [pure, done] <;>
    rfl

/-- Whether steps end so, and leave behind something that is as good as `t`. -/
def Leads (asGood : σ → σ → Prop) (x : ExceptT ε (StateM σ) α) (s : σ) (outcome : Except ε α) (t : σ) :
    Prop :=
  ∃ u, exec x s = (outcome, u) ∧ asGood u t

namespace Leads

variable {asGood : σ → σ → Prop} {x : ExceptT ε (StateM σ) α} {f : α → ExceptT ε (StateM σ) β} {s t v : σ}

theorem bind {a : α} {outcome : Except ε β} (first : Leads asGood x s (.ok a) t)
    (rest : ∀ u, asGood u t → Leads asGood (f a) u outcome v) : Leads asGood (x >>= f) s outcome v := by
  obtain ⟨u, run, good⟩ := first
  obtain ⟨last, run', good'⟩ := rest u good
  exact ⟨last, by rw [exec_bind, run]; exact run', good'⟩

theorem stop {e : ε} (failed : Leads asGood x s (.error e) t) : Leads asGood (x >>= f) s (.error e) t := by
  obtain ⟨u, run, good⟩ := failed
  exact ⟨u, by rw [exec_bind, run], good⟩

/-- Steps end as they did where those that always follow them end well. -/
theorem closing {y : ExceptT ε (StateM σ) Unit} {outcome : Except ε α} {closed : Except ε Unit}
    (ran : Leads asGood x s outcome t) (after : ∀ u, asGood u t → Leads asGood y u closed v) :
    Leads asGood (tryFinally x y) s (closed.bind fun _ => outcome) v := by
  obtain ⟨u, run, good⟩ := ran
  obtain ⟨last, run', good'⟩ := after u good
  refine ⟨last, ?_, good'⟩
  rw [exec_tryFinally, run]
  simp only [run']
  cases closed <;> rfl

end Leads

end HeaderBind.Effect
