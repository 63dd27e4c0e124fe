import ToyIP.Lib.Run

/-! # Simulations between two systems

A relation between the states of two systems is a simulation if every step of the first is matched
by some steps of the second, which may be none. The run that matches a run is then put together step
by step (`Simulates.run`). The conditions `E` and `D` on the events say which events count. -/

namespace ToyIP.Lib.Simulation

open ToyIP.Lib.Run

variable {σ τ ε δ : Type*}

/-- Every step of the first system is matched by a run of the second. -/
def Simulates (step : σ → ε → Option σ) (E : ε → Prop) (step' : τ → δ → Option τ) (D : δ → Prop)
    (R : σ → τ → Prop) : Prop :=
  ∀ s t e s', R s t → E e → step s e = some s' →
    ∃ ds t', (∀ d ∈ ds, D d) ∧ run step' t ds = some t' ∧ R s' t'

variable {step : σ → ε → Option σ} {E : ε → Prop} {step' : τ → δ → Option τ} {D : δ → Prop}
  {R : σ → τ → Prop}

/-- **The simulation rule.** -/
theorem Simulates.run (h : Simulates step E step' D R) : ∀ {es : List ε} {s s' : σ} {t : τ}, R s t →
    (∀ e ∈ es, E e) → Run.run step s es = some s' →
      ∃ ds t', (∀ d ∈ ds, D d) ∧ Run.run step' t ds = some t' ∧ R s' t'
  | [], s, s', t, hR, _, hr => by
    rw [run_nil, Option.some.injEq] at hr
    exact ⟨[], t, by simp, rfl, hr ▸ hR⟩
  | e :: es, s, s', t, hR, hE, hr => by
    obtain ⟨u, hu, hr'⟩ := run_cons.mp hr
    obtain ⟨ds, v, hds, hv, hR'⟩ := h s t e u hR (hE e (List.mem_cons_self ..)) hu
    obtain ⟨fs, t', hfs, ht', hR''⟩ := Simulates.run h hR'
      (fun e' he' => hE e' (List.mem_cons_of_mem _ he')) hr'
    refine ⟨ds ++ fs, t', fun d hd => ?_, run_append.mpr ⟨v, hv, ht'⟩, hR''⟩
    exact (List.mem_append.mp hd).elim (hds d) (hfs d)

/-- It is enough that every step is matched by one step or by none. -/
theorem Simulates.of_step (h : ∀ s t e s', R s t → E e → step s e = some s' →
    R s' t ∨ ∃ d t', D d ∧ step' t d = some t' ∧ R s' t') : Simulates step E step' D R := by
  intro s t e s' hR hE hstep
  rcases h s t e s' hR hE hstep with hR' | ⟨d, t', hd, ht', hR'⟩
  · exact ⟨[], t, by simp, rfl, hR'⟩
  · exact ⟨[d], t', by simpa using hd, run_cons.mpr ⟨t', ht', rfl⟩, hR'⟩

end ToyIP.Lib.Simulation
