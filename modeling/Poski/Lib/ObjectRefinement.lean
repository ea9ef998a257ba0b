import Mathlib.Data.List.Basic

/-!
# Refinement of Objects with Calls and Replies

An object is a state with a function that answers calls: a call either returns a reply
and the next state, or does not return. One object refines another if, from related
states, every call that the user is allowed to make returns on both sides with the same
reply and leaves the states related. Whole sequences of calls then agree.

- `runCalls_invariant` : what holds after any sequence of calls
- `ObjectRefinement.run` : sequences of legal calls agree
- `replies_eq_iff` : exactly when an object replies to a sequence as it is specified to
-/

namespace Poski.Lib

universe u v w x

variable {σ τ : Type u} {κ : Type v} {ρ : Type u} {ε : Type w} {δ : Type x}

/-- Make the calls one after the other and collect the replies. -/
def runCalls (obj : σ → κ → Except ε (σ × ρ)) : σ → List κ → Except ε (σ × List ρ)
  | s, [] => .ok (s, [])
  | s, c :: cs => do
    let (s', reply) ← obj s c
    let (s'', replies) ← runCalls obj s' cs
    return (s'', reply :: replies)

/-- Every call of the sequence is allowed in the state in which it is made. -/
def LegalCalls (obj : σ → κ → Except ε (σ × ρ)) (allowed : σ → κ → Prop) :
    σ → List κ → Prop
  | _, [] => True
  | s, c :: cs => allowed s c ∧
    match obj s c with
    | .ok (s', _) => LegalCalls obj allowed s' cs
    | .error _ => True

instance decidableLegalCalls (obj : σ → κ → Except ε (σ × ρ)) (allowed : σ → κ → Prop)
    [∀ s c, Decidable (allowed s c)] : ∀ s cs, Decidable (LegalCalls obj allowed s cs)
  | _, [] => inferInstanceAs (Decidable True)
  | s, c :: cs =>
    match h : obj s c with
    | .ok (s', _) =>
      have := decidableLegalCalls obj allowed s' cs
      decidable_of_iff (allowed s c ∧ LegalCalls obj allowed s' cs) (by rw [LegalCalls, h])
    | .error _ => decidable_of_iff (allowed s c) (by rw [LegalCalls, h, and_true])

theorem runCalls_cons {obj : σ → κ → Except ε (σ × ρ)} {s s' s'' : σ} {c : κ}
    {cs : List κ} {reply : ρ} {replies : List ρ} (hc : obj s c = .ok (s', reply))
    (hcs : runCalls obj s' cs = .ok (s'', replies)) :
    runCalls obj s (c :: cs) = .ok (s'', reply :: replies) := by
  simp [runCalls, hc, hcs, bind, Except.bind, pure, Except.pure]

theorem runCalls_cons_eq_ok {obj : σ → κ → Except ε (σ × ρ)} {s s'' : σ} {c : κ} {cs : List κ}
    {rs : List ρ} :
    runCalls obj s (c :: cs) = .ok (s'', rs) ↔
      ∃ s' reply replies, obj s c = .ok (s', reply) ∧
        runCalls obj s' cs = .ok (s'', replies) ∧ rs = reply :: replies := by
  constructor
  · intro h
    rw [runCalls] at h
    cases hc : obj s c with
    | error e =>
      rw [hc] at h
      cases h
    | ok res =>
      obtain ⟨s', reply⟩ := res
      -- the call has returned; the calls behind it may still fail to
      cases hcs : runCalls obj s' cs with
      | error e =>
        simp only [hc, hcs, bind, Except.bind] at h
        cases h
      | ok res =>
        simp only [hc, hcs, bind, Except.bind, pure, Except.pure] at h
        cases h
        exact ⟨s', reply, _, rfl, hcs, rfl⟩
  · rintro ⟨s', reply, replies, hc, hcs, rfl⟩
    exact runCalls_cons hc hcs

/-- One more call after a sequence of calls. -/
theorem runCalls_snoc {obj : σ → κ → Except ε (σ × ρ)} {s s' s'' : σ} {cs : List κ} {c : κ}
    {replies : List ρ} {reply : ρ} (hcs : runCalls obj s cs = .ok (s', replies))
    (hc : obj s' c = .ok (s'', reply)) :
    runCalls obj s (cs ++ [c]) = .ok (s'', replies ++ [reply]) := by
  induction cs generalizing s replies with
  | nil =>
    cases hcs
    exact runCalls_cons hc rfl
  | cons c₁ cs ih =>
    obtain ⟨s₁, reply₁, replies₁, hc₁, hrest, rfl⟩ := runCalls_cons_eq_ok.mp hcs
    exact runCalls_cons hc₁ (ih hrest)

/-- **Object invariant rule**: what every call that returns keeps, every sequence keeps. -/
theorem runCalls_invariant {obj : σ → κ → Except ε (σ × ρ)} {I : σ → Prop}
    (hcall : ∀ s c s' reply, I s → obj s c = .ok (s', reply) → I s')
    {s s' : σ} {cs : List κ} {rs : List ρ} (hs : I s)
    (h : runCalls obj s cs = .ok (s', rs)) : I s' := by
  induction cs generalizing s rs with
  | nil =>
    cases h
    exact hs
  | cons c cs ih =>
    obtain ⟨s₁, reply, replies, hc, hcs, -⟩ := runCalls_cons_eq_ok.mp h
    exact ih (hcall s c s₁ reply hs hc) hcs

/-- `conc` refines `abs` under `allowed`, by the relation `R`. -/
def ObjectRefinement (conc : σ → κ → Except ε (σ × ρ)) (allowed : σ → κ → Prop)
    (abs : τ → κ → Except δ (τ × ρ)) (R : σ → τ → Prop) : Prop :=
  ∀ s t c, R s t → allowed s c →
    ∃ s' t' reply, conc s c = .ok (s', reply) ∧ abs t c = .ok (t', reply) ∧ R s' t'

/-- **Sequences agree**: legal calls return on both sides, with the same replies. -/
theorem ObjectRefinement.run {conc : σ → κ → Except ε (σ × ρ)} {allowed : σ → κ → Prop}
    {abs : τ → κ → Except δ (τ × ρ)} {R : σ → τ → Prop}
    (href : ObjectRefinement conc allowed abs R) {s : σ} {t : τ} (hR : R s t)
    {cs : List κ} (hlegal : LegalCalls conc allowed s cs) :
    ∃ s' t' replies, runCalls conc s cs = .ok (s', replies) ∧
      runCalls abs t cs = .ok (t', replies) ∧ R s' t' := by
  induction cs generalizing s t with
  | nil => exact ⟨s, t, [], rfl, rfl, hR⟩
  | cons c cs ih =>
    obtain ⟨hallowed, hrest⟩ := hlegal
    obtain ⟨s₁, t₁, reply, hconc, habs, hR₁⟩ := href s t c hR hallowed
    rw [hconc] at hrest
    obtain ⟨s₂, t₂, replies, hconcs, habss, hR₂⟩ := ih hR₁ hrest
    exact ⟨s₂, t₂, reply :: replies, runCalls_cons hconc hconcs,
      runCalls_cons habs habss, hR₂⟩

/-! ## Comparison with a specification that always replies -/

/-- The replies to a sequence of calls. -/
def replies (obj : σ → κ → Except ε (σ × ρ)) (s : σ) (cs : List κ) : Except ε (List ρ) :=
  (runCalls obj s cs).map Prod.snd

theorem replies_eq_ok {obj : σ → κ → Except ε (σ × ρ)} {s : σ} {cs : List κ} {rs : List ρ} :
    replies obj s cs = .ok rs ↔ ∃ s', runCalls obj s cs = .ok (s', rs) := by
  rw [replies]
  cases runCalls obj s cs with
  | error e => simp [Except.map]
  | ok res => simp [Except.map, Prod.ext_iff]

theorem replies_cons_eq_ok {obj : σ → κ → Except ε (σ × ρ)} {s : σ} {c : κ} {cs : List κ}
    {reply : ρ} {rs : List ρ} :
    replies obj s (c :: cs) = .ok (reply :: rs) ↔
      ∃ s', obj s c = .ok (s', reply) ∧ replies obj s' cs = .ok rs := by
  simp only [replies_eq_ok, runCalls_cons_eq_ok]
  constructor
  · rintro ⟨s'', s', _, _, hc, hcs, heq⟩
    cases heq
    exact ⟨s', hc, s'', hcs⟩
  · rintro ⟨s', hc, s'', hcs⟩
    exact ⟨s'', s', reply, rs, hc, hcs, rfl⟩

/-- What every reply of the object meets, all replies to a sequence meet. -/
theorem replies_forall {obj : σ → κ → Except ε (σ × ρ)} {P : ρ → Prop}
    (hcall : ∀ s c s' reply, obj s c = .ok (s', reply) → P reply) {s : σ} {cs : List κ}
    {rs : List ρ} (h : replies obj s cs = .ok rs) : ∀ reply ∈ rs, P reply := by
  obtain ⟨s', h⟩ := replies_eq_ok.mp h
  induction cs generalizing s rs with
  | nil =>
    cases h
    intro reply hmem
    cases hmem
  | cons c cs ih =>
    obtain ⟨s₁, reply₁, rest, hc, hcs, rfl⟩ := runCalls_cons_eq_ok.mp h
    intro reply hmem
    rcases List.mem_cons.mp hmem with rfl | hrest
    · exact hcall s c s₁ _ hc
    · exact ih (replies_eq_ok.mpr ⟨s', hcs⟩) hcs reply hrest

/-- A reply in front of the others. -/
theorem cons_reply_eq_ok {α : Type u} {x : Except ε (List α)} {a : α} {as : List α} :
    (do return a :: (← x)) = Except.ok (a :: as) ↔ x = .ok as := by
  cases x <;> simp [bind, Except.bind, pure, Except.pure]

/-- The replies that a specification prescribes. -/
def specReplies (spec : τ → κ → τ × ρ) : τ → List κ → List ρ
  | _, [] => []
  | t, c :: cs => (spec t c).2 :: specReplies spec (spec t c).1 cs

/-- Every call of the sequence meets `good` in the specification's state. -/
def AlwaysCalls (spec : τ → κ → τ × ρ) (good : τ → κ → Prop) : τ → List κ → Prop
  | _, [] => True
  | t, c :: cs => good t c ∧ AlwaysCalls spec good (spec t c).1 cs

variable {spec : τ → κ → τ × ρ} {good good' allowed : τ → κ → Prop} {t : τ} {cs : List κ}

theorem alwaysCalls_and : AlwaysCalls spec (fun t c => good t c ∧ good' t c) t cs ↔
    AlwaysCalls spec good t cs ∧ AlwaysCalls spec good' t cs := by
  induction cs generalizing t with
  | nil => simp [AlwaysCalls]
  | cons c cs ih =>
    simp only [AlwaysCalls, ih]
    exact and_and_and_comm

theorem AlwaysCalls.mono (h : AlwaysCalls spec good t cs) (himp : ∀ t c, good t c → good' t c) :
    AlwaysCalls spec good' t cs := by
  induction cs generalizing t with
  | nil => trivial
  | cons c cs ih => exact ⟨himp t c h.1, ih h.2⟩

theorem alwaysCalls_true (t : τ) (cs : List κ) : AlwaysCalls spec (fun _ _ => True) t cs := by
  induction cs generalizing t with
  | nil => trivial
  | cons c cs ih => exact ⟨trivial, ih _⟩

theorem alwaysCalls_congr (h : ∀ t c, good t c ↔ good' t c) :
    AlwaysCalls spec good t cs ↔ AlwaysCalls spec good' t cs :=
  ⟨fun hall => hall.mono fun t c => (h t c).mp, fun hall => hall.mono fun t c => (h t c).mpr⟩

/-- **Exactly when an object replies as specified**: if a good call is answered as specified
and any other call is not, a whole sequence of calls is answered as specified exactly if all
of them are good. -/
theorem replies_eq_iff {obj : σ → κ → Except ε (σ × ρ)} (good : τ → κ → Prop)
    (R : σ → τ → Prop)
    (hgood : ∀ s t c, R s t → allowed t c → good t c →
      ∃ s', obj s c = .ok (s', (spec t c).2) ∧ R s' (spec t c).1)
    (hbad : ∀ s t c, R s t → allowed t c → ¬good t c → ∀ s', obj s c ≠ .ok (s', (spec t c).2))
    {s : σ} (hR : R s t) (hallowed : AlwaysCalls spec allowed t cs) :
    replies obj s cs = .ok (specReplies spec t cs) ↔ AlwaysCalls spec good t cs := by
  induction cs generalizing s t with
  | nil => exact ⟨fun _ => trivial, fun _ => rfl⟩
  | cons c cs ih =>
    obtain ⟨hallowed, hrest⟩ := hallowed
    rw [specReplies, replies_cons_eq_ok, AlwaysCalls]
    -- a good call leaves related states, so that the rest decides; after any other the first reply
    -- differs already
    by_cases hc : good t c
    · obtain ⟨s', hobj, hR'⟩ := hgood s t c hR hallowed hc
      rw [← ih hR' hrest]
      constructor
      · rintro ⟨s'', hobj', hreplies⟩
        cases hobj.symm.trans hobj'
        exact ⟨hc, hreplies⟩
      · rintro ⟨_, hreplies⟩
        exact ⟨s', hobj, hreplies⟩
    · constructor
      · rintro ⟨s', hobj, _⟩
        exact absurd hobj (hbad s t c hR hallowed hc s')
      · rintro ⟨hgood, _⟩
        exact absurd hgood hc

/-- If any other call halts, a sequence with such a call halts. -/
theorem replies_eq_error {obj : σ → κ → Except ε (σ × ρ)} {e : ε} (good : τ → κ → Prop)
    (R : σ → τ → Prop)
    (hgood : ∀ s t c, R s t → good t c →
      ∃ s', obj s c = .ok (s', (spec t c).2) ∧ R s' (spec t c).1)
    (hbad : ∀ s t c, R s t → ¬good t c → obj s c = .error e)
    {s : σ} (hR : R s t) (hnot : ¬AlwaysCalls spec good t cs) : replies obj s cs = .error e := by
  induction cs generalizing s t with
  | nil => exact absurd trivial hnot
  | cons c cs ih =>
    by_cases hc : good t c
    · obtain ⟨s', hobj, hR'⟩ := hgood s t c hR hc
      have hrest : replies obj s' cs = .error e := ih hR' fun hall => hnot ⟨hc, hall⟩
      rw [replies] at hrest ⊢
      cases hruns : runCalls obj s' cs with
      | ok res =>
        rw [hruns] at hrest
        cases hrest
      | error e' =>
        rw [hruns] at hrest
        simp only [runCalls, hobj, hruns, bind, Except.bind]
        exact hrest
    · simp only [replies, runCalls, hbad s t c hR hc, bind, Except.bind, Except.map]

end Poski.Lib
