import QueryPredicates.Evaluation.Run

/-! Runs that end in one way. Most runs draw on no counter: whatever the counters are, they
end with the same outcome and leave the counters as they were. Such runs compose as their
outcomes do, so they can be reasoned about as plain computations that may fail. -/

namespace QueryPredicates.Run

variable {ε ω α β : Type}

theorem map_apply (f : α → β) (m : Run ε ω α) (counters : Counters) :
    (f <$> m) counters =
      ⟨f <$> (m counters).outcome, (m counters).counters, (m counters).record⟩ := by
  rw [← bind_pure_comp]
  cases ho : (m counters).outcome with
  | error e => rw [bind_of_error ho]; rfl
  | ok a =>
    rw [bind_of_ok ho]
    simp only [pure_apply, List.append_nil]
    rfl

/-- Whatever the counters are, the run ends with `o` and leaves them alone. -/
def Yields (m : Run ε ω α) (o : Except ε α) : Prop :=
  ∀ counters, (m counters).outcome = o ∧ (m counters).counters = counters

namespace Yields

theorem pure (a : α) : Yields (Pure.pure a : Run ε ω α) (.ok a) := fun _ => ⟨rfl, rfl⟩

theorem fail (e : ε) : Yields (Run.fail e : Run ε ω α) (.error e) := fun _ => ⟨rfl, rfl⟩

theorem ofExcept (o : Except ε α) : Yields (Run.ofExcept o : Run ε ω α) o := by
  cases o with
  | ok a => exact pure a
  | error e => exact fail e

theorem note (entries : List ω) : Yields (Run.note entries : Run ε ω Unit) (.ok ()) :=
  fun _ => ⟨rfl, rfl⟩

theorem bind {m : Run ε ω α} {f : α → Run ε ω β} {o : Except ε α} {g : α → Except ε β}
    (hm : Yields m o) (hf : ∀ a, o = .ok a → Yields (f a) (g a)) : Yields (m >>= f) (o >>= g) := by
  intro counters
  obtain ⟨ho, hc⟩ := hm counters
  cases o with
  | error e =>
    rw [Run.bind_of_error ho f]
    exact ⟨rfl, hc⟩
  | ok a =>
    rw [Run.bind_of_ok ho f, hc]
    exact hf a rfl counters

/-- What follows a run matters only where the run comes out. -/
theorem bind_congr {m : Run ε ω α} {f g : α → Run ε ω β} {o : Except ε α} (hm : Yields m o)
    (h : ∀ a, o = .ok a → f a = g a) : (m >>= f) = (m >>= g) := by
  funext counters
  have ho := (hm counters).1
  cases o with
  | error e => rw [bind_of_error ho, bind_of_error ho]
  | ok a => rw [bind_of_ok ho, bind_of_ok ho, h a rfl]

/-- A run after one that returns. -/
theorem andThen {m : Run ε ω α} {f : α → Run ε ω β} {a : α} {o : Except ε β}
    (hm : Yields m (.ok a)) (hf : Yields (f a) o) : Yields (m >>= f) o :=
  bind (g := fun _ => o) hm fun _ hb => Except.ok.inj hb ▸ hf

/-- A run that goes on with one that returns. -/
theorem bindOk {m : Run ε ω α} {f : α → Run ε ω β} {o : Except ε α} {g : α → β}
    (hm : Yields m o) (hf : ∀ a, Yields (f a) (.ok (g a))) : Yields (m >>= f) (g <$> o) := by
  rw [← bind_pure_comp]
  exact hm.bind fun a _ => hf a

/-- A run whose result is noted. -/
theorem thenNote {m : Run ε ω α} {o : Except ε α} (hm : Yields m o) (entries : α → List ω) :
    Yields (m >>= fun a => Run.note (entries a) >>= fun _ => Pure.pure a) o := by
  have hf (a : α) :
      Yields (Run.note (entries a) >>= fun _ => Pure.pure a : Run ε ω α) (.ok a) :=
    (note (entries a)).andThen (pure a)
  have h := hm.bindOk hf
  rwa [id_map'] at h

theorem map {m : Run ε ω α} {o : Except ε α} (hm : Yields m o) (f : α → β) :
    Yields (f <$> m) (f <$> o) := by
  rw [← bind_pure_comp]
  exact hm.bindOk fun a => pure (f a)

theorem mapM {γ : Type} {f : γ → Run ε ω β} {g : γ → Except ε β} :
    ∀ {cs : List γ}, (∀ c ∈ cs, Yields (f c) (g c)) → Yields (cs.mapM f) (cs.mapM g)
  | [], _ => pure []
  | c :: cs, h => by
    rw [List.mapM_cons, List.mapM_cons]
    refine (h c List.mem_cons_self).bind fun b _ => ?_
    exact (mapM fun d hd => h d (List.mem_cons_of_mem c hd)).bind fun bs _ => pure (b :: bs)

/-- A run ends in one way only. -/
theorem unique {m : Run ε ω α} {o p : Except ε α} (ho : Yields m o) (hp : Yields m p) : o = p :=
  (ho fun _ => 0).1.symm.trans (hp fun _ => 0).1

theorem returns_unique {m : Run ε ω α} {a b : α} (ha : Yields m (.ok a))
    (hb : Yields m (.ok b)) : a = b :=
  Except.ok.inj (ha.unique hb)

theorem outcome_iff {m : Run ε ω α} {o p : Except ε α} (h : Yields m o) (counters : Counters) :
    (m counters).outcome = p ↔ o = p := by
  rw [(h counters).1]

end Yields
end QueryPredicates.Run
