import Mathlib.Data.Nat.Notation

/-! # Runs of a partial step function

A system is a step function `σ → ε → Option σ`: in the state `s` the event `e` is either impossible
or leads to one state. `run` iterates it over a list of events, `Along step C s es` says that every
step of the run satisfies `C` on the state before it and its event, `Once step C s es` that some
step does, and `Always step P s es` that `P` holds in every state of the run. `run_inv` is the
induction: what each step along `C` preserves holds at the end of every run along `C`. Where a step
keeps `P` if and only if it satisfies `C`, `P` holds always if and only if the run is along `C`:
`always_iff_along`. -/

namespace ToyIP.Lib.Run

variable {σ ε : Type*}

/-- The state after a list of events, if every one of them was possible. -/
def run (step : σ → ε → Option σ) : σ → List ε → Option σ
  | s, [] => some s
  | s, e :: es => (step s e).bind fun s' => run step s' es

/-- Every step of the run satisfies `C`. -/
def Along (step : σ → ε → Option σ) (C : σ → ε → Prop) : σ → List ε → Prop
  | _, [] => True
  | s, e :: es => C s e ∧ ∀ s', step s e = some s' → Along step C s' es

/-- Some step of the run satisfies `C`. -/
def Once (step : σ → ε → Option σ) (C : σ → ε → Prop) : σ → List ε → Prop
  | _, [] => False
  | s, e :: es => C s e ∨ ∃ s', step s e = some s' ∧ Once step C s' es

/-- Every state of the run satisfies `P`. -/
def Always (step : σ → ε → Option σ) (P : σ → Prop) (s : σ) (es : List ε) : Prop :=
  ∀ es₁ es₂ u, es = es₁ ++ es₂ → run step s es₁ = some u → P u

variable {step : σ → ε → Option σ} {C D : σ → ε → Prop} {P : σ → Prop}

@[simp] theorem run_nil (s : σ) : run step s [] = some s := rfl

theorem run_cons {s t : σ} {e : ε} {es : List ε} :
    run step s (e :: es) = some t ↔ ∃ s', step s e = some s' ∧ run step s' es = some t := by
  rw [run, Option.bind_eq_some_iff]

theorem run_append {s t : σ} : ∀ {es fs : List ε},
    run step s (es ++ fs) = some t ↔ ∃ u, run step s es = some u ∧ run step u fs = some t
  | [], fs => by simp
  | e :: es, fs => by
    simp only [List.cons_append, run_cons, run_append]
    constructor
    · rintro ⟨s', h, u, hu, ht⟩; exact ⟨u, ⟨s', h, hu⟩, ht⟩
    · rintro ⟨u, ⟨s', h, hu⟩, ht⟩; exact ⟨s', h, u, hu, ht⟩

instance Along.decidable [∀ s e, Decidable (C s e)] :
    ∀ (es : List ε) (s : σ), Decidable (Along step C s es)
  | [], _ => isTrue trivial
  | e :: es, s =>
    match h : step s e with
    | none => decidable_of_iff (C s e) (by simp [Along, h])
    | some s' =>
      have := Along.decidable es s'
      decidable_of_iff (C s e ∧ Along step C s' es) (by simp [Along, h])

theorem Along.mono (h : ∀ s e, C s e → D s e) : ∀ {es : List ε} {s : σ},
    Along step C s es → Along step D s es
  | [], _, _ => trivial
  | _ :: _, _, hc => ⟨h _ _ hc.1, fun s' hs' => Along.mono h (hc.2 s' hs')⟩

theorem Along.and : ∀ {es : List ε} {s : σ}, Along step C s es → Along step D s es →
    Along step (fun s e => C s e ∧ D s e) s es
  | [], _, _, _ => trivial
  | _ :: _, _, hc, hd => ⟨⟨hc.1, hd.1⟩, fun s' hs' => (hc.2 s' hs').and (hd.2 s' hs')⟩

/-- Along a run two conditions are the same if they are so for the steps that are possible. -/
theorem Along.congr (h : ∀ s e s', step s e = some s' → (C s e ↔ D s e)) :
    ∀ {es : List ε} {s t : σ}, run step s es = some t →
      (Along step C s es ↔ Along step D s es)
  | [], _, _, _ => Iff.rfl
  | e :: es, s, t, hr => by
    obtain ⟨s', hs', hr'⟩ := run_cons.mp hr
    have hnext := Along.congr h hr'
    constructor
    · rintro ⟨hc, ha⟩
      refine ⟨(h s e s' hs').mp hc, fun u hu => ?_⟩
      obtain rfl := Option.some.inj (hs'.symm.trans hu)
      exact hnext.mp (ha s' hs')
    · rintro ⟨hd, ha⟩
      refine ⟨(h s e s' hs').mpr hd, fun u hu => ?_⟩
      obtain rfl := Option.some.inj (hs'.symm.trans hu)
      exact hnext.mpr (ha s' hs')

/-- A condition on the events alone holds along every run. -/
theorem Along.of_forall : ∀ {es : List ε} {s : σ}, (∀ e ∈ es, ∀ s, C s e) → Along step C s es
  | [], _, _ => trivial
  | e :: _, s, h =>
    ⟨h e (List.mem_cons_self ..) s, fun _ _ =>
      Along.of_forall fun e' he' => h e' (List.mem_cons_of_mem _ he')⟩

theorem Along.forall_of_run {E : ε → Prop} : ∀ {es : List ε} {s t : σ}, run step s es = some t →
    Along step (fun _ e => E e) s es → ∀ e ∈ es, E e
  | e :: es, s, t, hr, ha, e', he' => by
    obtain ⟨s', hs', hr'⟩ := run_cons.mp hr
    rcases List.mem_cons.mp he' with rfl | he'
    · exact ha.1
    · exact Along.forall_of_run hr' (ha.2 s' hs') e' he'

/-- **The invariant rule.** -/
theorem run_inv (hstep : ∀ s e s', P s → C s e → step s e = some s' → P s') :
    ∀ {es : List ε} {s t : σ}, P s → Along step C s es → run step s es = some t → P t
  | [], s, t, hP, _, hr => by
    rw [run_nil, Option.some.injEq] at hr
    exact hr ▸ hP
  | e :: es, s, t, hP, hc, hr => by
    obtain ⟨s', hs', hr'⟩ := run_cons.mp hr
    exact run_inv hstep (hstep s e s' hP hc.1 hs') (hc.2 s' hs') hr'

theorem Along.left : ∀ {es fs : List ε} {s : σ}, Along step C s (es ++ fs) → Along step C s es
  | [], _, _, _ => trivial
  | _ :: _, _, _, h => ⟨h.1, fun s' hs' => Along.left (h.2 s' hs')⟩

theorem Along.right : ∀ {es fs : List ε} {s u : σ}, Along step C s (es ++ fs) →
    run step s es = some u → Along step C u fs
  | [], _, _, _, h, hu => Option.some.inj hu ▸ h
  | _ :: _, _, _, _, h, hu => by
    obtain ⟨s', hs', hu'⟩ := run_cons.mp hu
    exact (h.2 s' hs').right hu'

theorem Along.append : ∀ {es fs : List ε} {s : σ}, Along step C s es →
    (∀ u, run step s es = some u → Along step C u fs) → Along step C s (es ++ fs)
  | [], _, s, _, h => h s rfl
  | _ :: _, _, _, hc, h => ⟨hc.1, fun s' hs' =>
      (hc.2 s' hs').append fun u hu => h u (run_cons.mpr ⟨s', hs', hu⟩)⟩

/-- The invariant holds in every state of the run. -/
theorem always_inv (hstep : ∀ s e s', P s → C s e → step s e = some s' → P s') {es : List ε} {s : σ}
    (hP : P s) (hc : Along step C s es) : Always step P s es := by
  intro es₁ es₂ u heq hu
  rw [heq] at hc
  exact run_inv hstep hP hc.left hu

/-- What the invariant gives for one step holds of every step of the run. -/
theorem along_inv (hstep : ∀ s e s', P s → step s e = some s' → P s') (hC : ∀ s e, P s → C s e) :
    ∀ {es : List ε} {s : σ}, P s → Along step C s es
  | [], _, _ => trivial
  | e :: _, s, hP => ⟨hC s e hP, fun s' hs' => along_inv hstep hC (hstep s e s' hP hs')⟩

/-- **Two conditions on the steps of a run** are the same along it if they are so for each step from
a state with `I`, which the steps with the first one keep. -/
theorem along_iff_along {L : σ → ε → Prop} {I : σ → Prop}
    (hI : ∀ s e s', I s → L s e → C s e → step s e = some s' → I s')
    (hstep : ∀ s e, I s → L s e → (C s e ↔ D s e)) : ∀ {es : List ε} {s : σ}, I s →
      Along step L s es → (Along step C s es ↔ Along step D s es)
  | [], _, _, _ => Iff.rfl
  | e :: es, s, hs, hL => by
    rw [Along, Along, hstep s e hs hL.1]
    refine and_congr_right fun hd => forall₂_congr fun s' hs' => ?_
    exact along_iff_along hI hstep (hI s e s' hs hL.1 ((hstep s e hs hL.1).mpr hd) hs') (hL.2 s' hs')

theorem always_cons {s s' : σ} {e : ε} {es : List ε} (h : step s e = some s') :
    Always step P s (e :: es) ↔ P s ∧ Always step P s' es := by
  constructor
  · intro ha
    refine ⟨ha [] (e :: es) s rfl rfl, fun es₁ es₂ u heq hu => ?_⟩
    exact ha (e :: es₁) es₂ u (by rw [heq]; rfl) (run_cons.mpr ⟨s', h, hu⟩)
  · rintro ⟨hP, ha⟩ es₁ es₂ u heq hu
    cases es₁ with
    | nil => exact Option.some.inj hu ▸ hP
    | cons e' es₁ =>
      obtain ⟨rfl, rfl⟩ := List.cons.inj heq
      obtain ⟨s'', hs'', hu'⟩ := run_cons.mp hu
      rw [h, Option.some.injEq] at hs''
      exact ha es₁ es₂ u rfl (hs'' ▸ hu')

/-- **The exact condition of a run**, with an invariant `I` that every step keeps. -/
theorem always_iff_along {I : σ → Prop}
    (hI : ∀ s e s', I s → P s → step s e = some s' → P s' → I s')
    (hstep : ∀ s e s', I s → P s → step s e = some s' → (P s' ↔ C s e)) :
    ∀ {es : List ε} {s t : σ}, I s → P s → run step s es = some t →
      (Always step P s es ↔ Along step C s es)
  | [], s, t, _, hP, _ => by
    refine ⟨fun _ => trivial, fun _ es₁ es₂ u heq hu => ?_⟩
    obtain ⟨rfl, -⟩ := List.append_eq_nil_iff.mp heq.symm
    exact Option.some.inj hu ▸ hP
  | e :: es, s, t, hs, hP, hr => by
    obtain ⟨s', hs', hr'⟩ := run_cons.mp hr
    rw [always_cons hs']
    have hiff := hstep s e s' hs hP hs'
    have hnext : P s' → (Always step P s' es ↔ Along step C s' es) := fun hP' =>
      always_iff_along hI hstep (hI s e s' hs hP hs' hP') hP' hr'
    constructor
    · rintro ⟨-, ha⟩
      have hP' : P s' := ha [] es s' rfl rfl
      refine ⟨hiff.mp hP', fun u hu => ?_⟩
      rw [hs', Option.some.injEq] at hu
      exact hu ▸ (hnext hP').mp ha
    · rintro ⟨hc, ha⟩
      exact ⟨hP, (hnext (hiff.mpr hc)).mpr (ha s' hs')⟩

/-- **The exact condition of a run whose events may fail.** From states with `I` and `P` an event
that is in place (`L`) has a result with `P` if and only if it satisfies `C`; so a list of events,
all in place, runs through states with `P` if and only if all satisfy `C`. -/
theorem run_always_iff_along {L : σ → ε → Prop} {I : σ → Prop}
    (hI : ∀ s e s', I s → P s → L s e → step s e = some s' → P s' → I s')
    (hstep : ∀ s e, I s → P s → L s e → ((∃ s', step s e = some s' ∧ P s') ↔ C s e)) :
    ∀ {es : List ε} {s : σ}, I s → P s → Along step L s es →
      ((∃ t, run step s es = some t) ∧ Always step P s es ↔ Along step C s es)
  | [], s, _, hP, _ => by
    refine ⟨fun _ => trivial, fun _ => ⟨⟨s, rfl⟩, fun es₁ es₂ u heq hu => ?_⟩⟩
    obtain ⟨rfl, -⟩ := List.append_eq_nil_iff.mp heq.symm
    exact Option.some.inj hu ▸ hP
  | e :: es, s, hs, hP, hL => by
    have hiff := hstep s e hs hP hL.1
    constructor
    · rintro ⟨⟨t, ht⟩, ha⟩
      obtain ⟨s', hs', ht'⟩ := run_cons.mp ht
      have ha' := ((always_cons hs').mp ha).2
      have hP' : P s' := ha' [] es s' rfl rfl
      refine ⟨hiff.mp ⟨s', hs', hP'⟩, fun u hu => ?_⟩
      obtain rfl := Option.some.inj (hs'.symm.trans hu)
      exact (run_always_iff_along hI hstep (hI s e s' hs hP hL.1 hs' hP') hP' (hL.2 s' hs')).mp
        ⟨⟨t, ht'⟩, ha'⟩
    · rintro ⟨hc, hrest⟩
      obtain ⟨s', hs', hP'⟩ := hiff.mpr hc
      have hs'' := hI s e s' hs hP hL.1 hs' hP'
      obtain ⟨⟨t, ht⟩, ha⟩ :=
        (run_always_iff_along hI hstep hs'' hP' (hL.2 s' hs')).mpr (hrest s' hs')
      exact ⟨⟨t, run_cons.mpr ⟨s', hs', ht⟩⟩, (always_cons hs').mpr ⟨hP, ha⟩⟩

end ToyIP.Lib.Run
