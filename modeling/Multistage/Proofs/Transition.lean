/-
Multistage.Proofs.Transition — running operations, and what they preserve.

`perform` of an operation built from smaller ones is the smaller ones
performed in turn; a failure ends the operation and keeps the state that it
has reached.  `Ensures` is the judgement by which invariants are carried along
operations: whatever happens, the state stays within an invariant, and a
result that is returned has a property.  `Related` judges two operations side by
side in the same manner.  There is one rule for each way of building operations,
so an operation needs no unfolding to be judged.
-/
import Multistage.Proofs.Except

namespace Multistage

namespace Transition

variable {σ τ β γ : Type}

/-! ## Running operations -/

@[simp] theorem perform_pure (b : β) (s : σ) : (pure b : Transition σ β).perform s = (.ok b, s) :=
  rfl

@[simp] theorem perform_throw (e : Failure) (s : σ) :
    (throw e : Transition σ β).perform s = (.error e, s) :=
  rfl

@[simp] theorem perform_get (s : σ) : (get : Transition σ σ).perform s = (.ok s, s) :=
  rfl

@[simp] theorem perform_set (s s' : σ) : (set s' : Transition σ PUnit).perform s = (.ok ⟨⟩, s') :=
  rfl

@[simp] theorem perform_modify (f : σ → σ) (s : σ) :
    (modify f : Transition σ PUnit).perform s = (.ok ⟨⟩, f s) :=
  rfl

@[simp] theorem perform_outcome (r : Except Failure β) (s : σ) :
    (outcome r : Transition σ β).perform s = (r, s) :=
  rfl

@[simp] theorem perform_liftM (r : Except Failure β) (s : σ) :
    (liftM r : Transition σ β).perform s = (r, s) :=
  rfl

@[simp] theorem perform_of (f : σ → Except Failure β × σ) (s : σ) : (of f).perform s = f s :=
  rfl

@[simp] theorem perform_focus (part : σ → τ) (put : τ → σ → σ) (op : Transition τ β) (s : σ) :
    (focus part put op).perform s
      = ((op.perform (part s)).1, put (op.perform (part s)).2 s) :=
  rfl

theorem perform_bind (op : Transition σ β) (f : β → Transition σ γ) (s : σ) :
    (op >>= f).perform s
      = match op.perform s with
        | (.ok b, s') => (f b).perform s'
        | (.error e, s') => (.error e, s') := by
  simp only [perform, bind, ExceptT.bind, ExceptT.run, ExceptT.mk, StateT.run, StateT.bind]
  rcases op s with ⟨r, s'⟩
  cases r <;> rfl

theorem perform_bind_ok {op : Transition σ β} {f : β → Transition σ γ} {s s' : σ} {b : β}
    (h : op.perform s = (.ok b, s')) : (op >>= f).perform s = (f b).perform s' := by
  rw [perform_bind, h]

theorem perform_bind_error {op : Transition σ β} {f : β → Transition σ γ} {s s' : σ}
    {e : Failure} (h : op.perform s = (.error e, s')) :
    (op >>= f).perform s = (.error e, s') := by
  rw [perform_bind, h]

theorem exists_perform_eq_ok {op : Transition σ β} {s : σ} {b : β} (h : (op.perform s).1 = .ok b) :
    ∃ s', op.perform s = (.ok b, s') :=
  ⟨_, Prod.ext h rfl⟩

theorem exists_perform_of_toOption (op : Transition σ β) (s : σ) {b : β}
    (h : (op.perform s).1.toOption = some b) : ∃ s', op.perform s = (.ok b, s') :=
  exists_perform_eq_ok (eq_ok_of_toOption h)

/-- Two operations in turn succeed exactly if the first does, and the second from
where the first has led. -/
theorem perform_bind_eq_ok {op : Transition σ β} {f : β → Transition σ γ} {s s'' : σ} {c : γ} :
    (op >>= f).perform s = (.ok c, s'')
      ↔ ∃ b s', op.perform s = (.ok b, s') ∧ (f b).perform s' = (.ok c, s'') := by
  rw [perform_bind]
  rcases op.perform s with ⟨r, s'⟩
  cases r with
  | ok b =>
    constructor
    · exact fun h => ⟨b, s', rfl, h⟩
    · rintro ⟨_, _, ⟨⟩, h⟩
      exact h
  | error e => simp

theorem outcome_eq_ok {r : Except Failure β} {s s' : σ} {b : β} :
    (outcome r).perform s = (.ok b, s') ↔ r = .ok b ∧ s' = s := by
  rw [perform_outcome, Prod.mk.injEq, eq_comm (a := s)]

theorem perform_outcome_bind {r : Except Failure β} {f : β → Transition σ γ} {b : β}
    (h : r = .ok b) (s : σ) : (outcome r >>= f).perform s = (f b).perform s :=
  perform_bind_ok (outcome_eq_ok.mpr ⟨h, rfl⟩)

/-- An outcome has no effect on what comes after it. -/
theorem outcome_bind_eq_ok {r : Except Failure β} {f : β → Transition σ γ} {s s' : σ} {c : γ} :
    (outcome r >>= f).perform s = (.ok c, s') ↔ ∃ b, r = .ok b ∧ (f b).perform s = (.ok c, s') := by
  rw [perform_bind, perform_outcome]
  cases r with
  | ok b => simp
  | error e => simp

@[simp] theorem perform_map (f : β → γ) (op : Transition σ β) (s : σ) :
    (f <$> op).perform s = ((op.perform s).1.map f, (op.perform s).2) := by
  rw [map_eq_pure_bind, perform_bind]
  rcases op.perform s with ⟨r, s'⟩
  cases r <;> rfl

theorem map_eq_ok {op : Transition σ β} {f : β → γ} {s s' : σ} {c : γ} :
    (f <$> op).perform s = (.ok c, s') ↔ ∃ b, op.perform s = (.ok b, s') ∧ c = f b := by
  rw [map_eq_pure_bind, perform_bind_eq_ok]
  constructor
  · rintro ⟨b, s₁, hb, ⟨⟩⟩
    exact ⟨b, hb, rfl⟩
  · rintro ⟨b, hb, rfl⟩
    exact ⟨b, s', hb, rfl⟩

theorem perform_discard (op : Transition σ β) (s : σ) :
    (Functor.discard op : Transition σ PUnit).perform s
      = ((op.perform s).1.map fun _ => ⟨⟩, (op.perform s).2) :=
  perform_map (fun _ => PUnit.unit) op s

theorem perform_discard_eq_ok {op : Transition σ β} {s s' : σ} :
    (Functor.discard op : Transition σ PUnit).perform s = (.ok ⟨⟩, s')
      ↔ ∃ b, op.perform s = (.ok b, s') := by
  rw [perform_discard]
  rcases op.perform s with ⟨r, s''⟩
  cases r with
  | ok b => simp [Except.map]
  | error e => simp [Except.map]

theorem perform_discard_eq_error {op : Transition σ β} {s s' : σ} {e : Failure} :
    (Functor.discard op : Transition σ PUnit).perform s = (.error e, s')
      ↔ op.perform s = (.error e, s') := by
  rw [perform_discard]
  rcases op.perform s with ⟨r, s''⟩
  cases r with
  | ok b => exact iff_of_false nofun nofun
  | error e' => simp [Except.map]

theorem focus_eq_ok {part : σ → τ} {put : τ → σ → σ} {op : Transition τ β} {s s' : σ} {b : β} :
    (focus part put op).perform s = (.ok b, s')
      ↔ ∃ t, op.perform (part s) = (.ok b, t) ∧ s' = put t s := by
  rw [perform_focus]
  constructor
  · intro h
    obtain ⟨hb, rfl⟩ := Prod.mk.inj h
    exact ⟨_, Prod.ext hb rfl, rfl⟩
  · rintro ⟨t, h, rfl⟩
    rw [h]

/-! ## Loops -/

/-- A loop that succeeds exactly if a condition holds for every item.  `reached`
says which state it has reached when it is done with a part of its items. -/
theorem forM_perform_eq_ok {xs : List β} {f : β → Transition σ PUnit} {reached : List β → σ}
    {P : β → Prop}
    (h : ∀ done x rest, xs = done ++ x :: rest → ∀ s',
      (f x).perform (reached done) = (.ok ⟨⟩, s') ↔ P x ∧ s' = reached (done ++ [x])) (s' : σ) :
    (xs.forM f).perform (reached []) = (.ok ⟨⟩, s') ↔ (∀ x ∈ xs, P x) ∧ s' = reached xs := by
  have hloop : ∀ rest done, xs = done ++ rest →
      ((rest.forM f).perform (reached done) = (.ok ⟨⟩, s')
        ↔ (∀ x ∈ rest, P x) ∧ s' = reached xs) := by
    intro rest
    induction rest with
    | nil =>
      intro done hdone
      rw [hdone, List.append_nil]
      constructor
      · rintro ⟨⟩
        exact ⟨by simp, rfl⟩
      · rintro ⟨-, rfl⟩
        rfl
    | cons x rest ih =>
      intro done hdone
      show (f x >>= fun _ => rest.forM f).perform (reached done) = _ ↔ _
      rw [perform_bind_eq_ok, List.forall_mem_cons]
      have hnext := ih (done ++ [x]) (by simp [hdone])
      constructor
      · rintro ⟨_, s'', hx, hrun⟩
        obtain ⟨hpost, rfl⟩ := (h done x rest hdone s'').mp hx
        obtain ⟨hrest, hs'⟩ := hnext.mp hrun
        exact ⟨⟨hpost, hrest⟩, hs'⟩
      · rintro ⟨⟨hpost, hrest⟩, hs'⟩
        exact ⟨⟨⟩, _, (h done x rest hdone _).mpr ⟨hpost, rfl⟩, hnext.mpr ⟨hrest, hs'⟩⟩
  exact hloop xs [] rfl

/-- An operation performed once more than so many times. -/
theorem times_succ_eq_ok {op : Transition σ β} {n : Nat} {s s' : σ} {bs : List β} :
    (times (n + 1) op).perform s = (.ok bs, s')
      ↔ ∃ b s₁ later, op.perform s = (.ok b, s₁) ∧ (times n op).perform s₁ = (.ok later, s') ∧
          bs = b :: later := by
  rw [times]
  constructor
  · intro h
    obtain ⟨b, s₁, hb, h⟩ := perform_bind_eq_ok.mp h
    obtain ⟨later, s₂, hlater, h⟩ := perform_bind_eq_ok.mp h
    cases h
    exact ⟨b, s₁, later, hb, hlater, rfl⟩
  · rintro ⟨b, s₁, later, hb, hlater, rfl⟩
    exact perform_bind_eq_ok.mpr ⟨b, s₁, hb, perform_bind_eq_ok.mpr ⟨later, s', hlater, rfl⟩⟩

/-- Performing an operation a number of times is to perform it some of the times, and then
the others. -/
theorem times_add_eq_ok {op : Transition σ β} {k : Nat} :
    ∀ {n : Nat} {s s' : σ} {bs : List β},
      (times (n + k) op).perform s = (.ok bs, s')
        ↔ ∃ first s₁ later, (times n op).perform s = (.ok first, s₁) ∧
            (times k op).perform s₁ = (.ok later, s') ∧ bs = first ++ later
  | 0, s, s', bs => by
    rw [Nat.zero_add]
    constructor
    · exact fun h => ⟨[], s, bs, rfl, h, rfl⟩
    · rintro ⟨first, s₁, later, ⟨⟩, h, rfl⟩
      exact h
  | n + 1, s, s', bs => by
    rw [Nat.succ_add, times_succ_eq_ok]
    constructor
    · rintro ⟨b, s₁, rest, hb, hrest, rfl⟩
      obtain ⟨first, s₂, later, hfirst, hlater, rfl⟩ := times_add_eq_ok.mp hrest
      exact ⟨b :: first, s₂, later, times_succ_eq_ok.mpr ⟨b, s₁, first, hb, hfirst, rfl⟩,
        hlater, rfl⟩
    · rintro ⟨first, s₂, later, hfirst, hlater, rfl⟩
      obtain ⟨b, s₁, rest, hb, hrest, rfl⟩ := times_succ_eq_ok.mp hfirst
      exact ⟨b, s₁, rest ++ later, hb,
        times_add_eq_ok.mpr ⟨rest, s₂, later, hrest, hlater, rfl⟩, rfl⟩

/-- Every outcome of an operation performed a number of times is that of its turn. -/
theorem times_getElem {op : Transition σ β} {n : Nat} {s s' : σ} {bs : List β}
    (h : (times n op).perform s = (.ok bs, s')) {r : Nat} {b : β} (hb : bs[r]? = some b) :
    ∃ s₁ s₂, (times r op).perform s = (.ok (bs.take r), s₁) ∧ op.perform s₁ = (.ok b, s₂) := by
  induction n generalizing s bs r with
  | zero =>
    cases h
    exact nomatch hb
  | succ n ih =>
    obtain ⟨a, s₁, later, ha, hlater, rfl⟩ := times_succ_eq_ok.mp h
    cases r with
    | zero =>
      cases hb
      exact ⟨s, s₁, rfl, ha⟩
    | succ r =>
      obtain ⟨s₂, s₃, hbefore, hop⟩ := ih hlater hb
      exact ⟨s₂, s₃, times_succ_eq_ok.mpr ⟨a, s₁, _, ha, hbefore, rfl⟩, hop⟩

theorem times_length {op : Transition σ β} :
    ∀ {n : Nat} {s s' : σ} {bs : List β}, (times n op).perform s = (.ok bs, s') → bs.length = n
  | 0, _, _, _, h => by
    cases h
    rfl
  | n + 1, _, _, _, h => by
    obtain ⟨_, _, later, -, hlater, rfl⟩ := times_succ_eq_ok.mp h
    rw [List.length_cons, times_length hlater]

/-- What is made of the outcomes may be made of them afterwards. -/
theorem times_map (f : β → γ) (op : Transition σ β) :
    ∀ n : Nat, times n (f <$> op) = List.map f <$> times n op
  | 0 => rfl
  | n + 1 => by
    rw [times, times, times_map f op n]
    simp only [map_eq_pure_bind, bind_assoc, pure_bind, List.map_cons]

/-- A check that all outcomes of an operation pass may be left out. -/
theorem checked_eq {op : Transition σ β} {check : β → Except Failure Unit}
    (h : ∀ s b s', op.perform s = (.ok b, s') → check b = .ok ()) :
    (do
      let b ← op
      outcome (check b)
      return b) = op := by
  refine funext fun s => ?_
  show Transition.perform _ s = op.perform s
  rw [perform_bind]
  rcases hrun : op.perform s with ⟨r, s'⟩
  cases r with
  | ok b =>
    dsimp only
    rw [perform_bind, perform_outcome, h s b s' hrun]
    rfl
  | error e => rfl

/-- An operation performed a number of times, each time with a check of its outcome. -/
theorem times_checked_eq_ok {op : Transition σ β} {check : β → Except Failure Unit} :
    ∀ {n : Nat} {s s' : σ} {bs : List β},
      (times n (do
        let b ← op
        outcome (check b)
        return b)).perform s = (.ok bs, s')
        ↔ (times n op).perform s = (.ok bs, s') ∧ ∀ b ∈ bs, check b = .ok ()
  | 0, s, s', bs => by
    constructor
    · rintro ⟨⟩
      exact ⟨rfl, by simp⟩
    · exact And.left
  | n + 1, s, s', bs => by
    unfold times
    simp only [bind_assoc, pure_bind]
    constructor
    · intro h
      obtain ⟨b, s₁, hb, h⟩ := perform_bind_eq_ok.mp h
      obtain ⟨⟨⟩, hcheck, h⟩ := outcome_bind_eq_ok.mp h
      obtain ⟨bs, s₂, hbs, h⟩ := perform_bind_eq_ok.mp h
      cases h
      obtain ⟨hbs, hchecks⟩ := times_checked_eq_ok.mp hbs
      refine ⟨perform_bind_eq_ok.mpr ⟨b, s₁, hb, perform_bind_eq_ok.mpr ⟨bs, _, hbs, rfl⟩⟩, ?_⟩
      exact List.forall_mem_cons.mpr ⟨hcheck, hchecks⟩
    · rintro ⟨h, hchecks⟩
      obtain ⟨b, s₁, hb, h⟩ := perform_bind_eq_ok.mp h
      obtain ⟨bs, s₂, hbs, h⟩ := perform_bind_eq_ok.mp h
      cases h
      obtain ⟨hcheck, hchecks⟩ := List.forall_mem_cons.mp hchecks
      exact perform_bind_eq_ok.mpr ⟨b, s₁, hb, outcome_bind_eq_ok.mpr ⟨(), hcheck,
        perform_bind_eq_ok.mpr ⟨bs, _, times_checked_eq_ok.mpr ⟨hbs, hchecks⟩, rfl⟩⟩⟩

/-! ## Invariants of operations -/

/-- From a state within an invariant an operation leads to a state within it,
also when it fails, and what it returns has a property. -/
def Ensures (inv : σ → Prop) (op : Transition σ β) (post : β → Prop) : Prop :=
  ∀ s, inv s → inv (op.perform s).2 ∧ ∀ b, (op.perform s).1 = .ok b → post b

namespace Ensures

variable {inv : σ → Prop} {post : β → Prop}

theorem weaken {post' : β → Prop} {op : Transition σ β} (h : Ensures inv op post)
    (himp : ∀ b, post b → post' b) : Ensures inv op post' := by
  intro s hs
  obtain ⟨hinv, hpost⟩ := h s hs
  exact ⟨hinv, fun b hb => himp b (hpost b hb)⟩

theorem trivial {op : Transition σ β} (h : Ensures inv op post) :
    Ensures inv op fun _ => True :=
  h.weaken fun _ _ => True.intro

theorem pure {b : β} (h : post b) : Ensures inv (Pure.pure b) post := by
  intro s hs
  refine ⟨hs, fun b' hb' => ?_⟩
  cases hb'
  exact h

theorem get : Ensures inv MonadState.get inv := by
  intro s hs
  refine ⟨hs, fun s' hs' => ?_⟩
  cases hs'
  exact hs

theorem set {s : σ} (h : inv s) : Ensures inv (MonadStateOf.set s) fun _ => True :=
  fun _ _ => ⟨h, fun _ _ => True.intro⟩

theorem modify {f : σ → σ} (h : ∀ s, inv s → inv (f s)) :
    Ensures inv (modify f) fun _ => True :=
  fun s hs => ⟨h s hs, fun _ _ => True.intro⟩

theorem outcome {r : Except Failure β} (h : ∀ b, r = .ok b → post b) :
    Ensures inv (Transition.outcome r) post :=
  fun _ hs => ⟨hs, h⟩

theorem bind {post' : γ → Prop} {op : Transition σ β} {f : β → Transition σ γ}
    (hop : Ensures inv op post) (hf : ∀ b, post b → Ensures inv (f b) post') :
    Ensures inv (op >>= f) post' := by
  intro s hs
  obtain ⟨hinv, hpost⟩ := hop s hs
  rcases hrun : op.perform s with ⟨r, s'⟩
  rw [hrun] at hinv hpost
  cases r with
  | ok b =>
    rw [perform_bind_ok hrun]
    exact hf b (hpost b rfl) s' hinv
  | error e =>
    rw [perform_bind_error hrun]
    exact ⟨hinv, fun _ h => nomatch h⟩

theorem map {post' : γ → Prop} {op : Transition σ β} {f : β → γ} (hop : Ensures inv op post)
    (hf : ∀ b, post b → post' (f b)) : Ensures inv (f <$> op) post' := by
  rw [map_eq_pure_bind]
  exact hop.bind fun b hb => pure (hf b hb)

theorem discard {op : Transition σ β} (hop : Ensures inv op post) :
    Ensures inv (Functor.discard op) fun _ => True :=
  hop.map fun _ _ => True.intro

theorem focus {inv' : τ → Prop} {part : σ → τ} {put : τ → σ → σ} {op : Transition τ β}
    (hpart : ∀ s, inv s → inv' (part s)) (hop : Ensures inv' op post)
    (hput : ∀ s t, inv s → inv' t → inv (put t s)) :
    Ensures inv (Transition.focus part put op) post := by
  intro s hs
  obtain ⟨hinv, hpost⟩ := hop (part s) (hpart s hs)
  exact ⟨hput s _ hs hinv, hpost⟩

theorem forM {f : β → Transition σ PUnit} :
    ∀ {xs : List β}, (∀ x ∈ xs, Ensures inv (f x) fun _ => True) →
      Ensures inv (xs.forM f) fun _ => True
  | [], _ => pure True.intro
  | x :: xs, h => by
    show Ensures inv (f x >>= fun _ => xs.forM f) _
    exact (h x (by simp)).bind fun _ _ => forM fun y hy => h y (by simp [hy])

theorem mapM {f : β → Transition σ γ} {post' : γ → Prop} :
    ∀ {xs : List β}, (∀ x ∈ xs, Ensures inv (f x) post') →
      Ensures inv (xs.mapM f) fun ys => ∀ y ∈ ys, post' y
  | [], _ => pure (by simp)
  | x :: xs, h => by
    rw [List.mapM_cons]
    refine (h x (by simp)).bind fun y hy => ?_
    refine (mapM fun z hz => h z (by simp [hz])).bind fun ys hys => ?_
    refine pure fun z hz => ?_
    rcases List.mem_cons.mp hz with rfl | hz
    · exact hy
    · exact hys z hz

theorem times {op : Transition σ β} (hop : Ensures inv op post) :
    ∀ n : Nat, Ensures inv (Transition.times n op) fun bs => bs.length = n ∧ ∀ b ∈ bs, post b
  | 0 => pure (by simp)
  | n + 1 => by
    refine hop.bind fun b hb => ?_
    refine (times hop n).bind fun bs hbs => ?_
    exact pure ⟨congrArg (· + 1) hbs.1, List.forall_mem_cons.mpr ⟨hb, hbs.2⟩⟩

end Ensures

/-! ## Operations side by side -/

/-- Two outcomes side by side: both are results, or both are failures. -/
inductive Alike (P : β → γ → Prop) (E : Failure → Failure → Prop) :
    Except Failure β → Except Failure γ → Prop where
  | ok {b : β} {c : γ} (h : P b c) : Alike P E (.ok b) (.ok c)
  | error {e e' : Failure} (h : E e e') : Alike P E (.error e) (.error e')

theorem Alike.refl {P : β → β → Prop} {E : Failure → Failure → Prop} (hP : ∀ b, P b b)
    (hE : ∀ e, E e e) (r : Except Failure β) : Alike P E r r := by
  cases r with
  | ok b => exact .ok (hP b)
  | error e => exact .error (hE e)

theorem Alike.bind {γ' β' : Type} {P : β → β' → Prop} {Q : γ → γ' → Prop}
    {E : Failure → Failure → Prop} {r : Except Failure β} {r' : Except Failure β'}
    {f : β → Except Failure γ} {f' : β' → Except Failure γ'} (h : Alike P E r r')
    (hf : ∀ b b', P b b' → Alike Q E (f b) (f' b')) : Alike Q E (r >>= f) (r' >>= f') := by
  cases h with
  | ok h => exact hf _ _ h
  | error h => exact .error h

/-- From related states two operations lead to related states, also when they fail, and
their outcomes are alike. -/
def Related {σ' : Type} (R : σ → σ' → Prop) (P : β → γ → Prop) (E : Failure → Failure → Prop)
    (op : Transition σ β) (op' : Transition σ' γ) : Prop :=
  ∀ s s', R s s' →
    Alike P E (op.perform s).1 (op'.perform s').1 ∧ R (op.perform s).2 (op'.perform s').2

namespace Related

variable {σ' β' γ' : Type} {R : σ → σ' → Prop} {P : β → β' → Prop} {Q : γ → γ' → Prop}
  {E : Failure → Failure → Prop}

theorem pure {b : β} {b' : β'} (h : P b b') :
    Related R P E (Pure.pure b : Transition σ β) (Pure.pure b') :=
  fun _ _ hs => ⟨.ok h, hs⟩

theorem throw {e e' : Failure} (h : E e e') :
    Related R P E (throw e : Transition σ β) (throw e' : Transition σ' β') :=
  fun _ _ hs => ⟨.error h, hs⟩

/-- An operation beside itself. -/
theorem self (op : Transition σ β) : Related Eq Eq Eq op op := by
  rintro s _ rfl
  exact ⟨.refl Eq.refl Eq.refl _, rfl⟩

theorem outcome {r : Except Failure β} {r' : Except Failure β'} (h : Alike P E r r') :
    Related R P E (Transition.outcome r) (Transition.outcome r') :=
  fun _ _ hs => ⟨h, hs⟩

theorem bind {op : Transition σ β} {op' : Transition σ' β'} {f : β → Transition σ γ}
    {f' : β' → Transition σ' γ'} (hop : Related R P E op op')
    (hf : ∀ b b', P b b' → Related R Q E (f b) (f' b')) :
    Related R Q E (op >>= f) (op' >>= f') := by
  intro s s' hs
  obtain ⟨hr, hs'⟩ := hop s s' hs
  rw [perform_bind, perform_bind]
  rcases hrun : op.perform s with ⟨r, t⟩
  rcases hrun' : op'.perform s' with ⟨r', t'⟩
  rw [hrun, hrun'] at hr hs'
  cases hr with
  | ok h => exact hf _ _ h t t' hs'
  | error h => exact ⟨.error h, hs'⟩

theorem discard {op : Transition σ β} {op' : Transition σ' β'} (h : Related R P E op op') :
    Related R Eq E (Functor.discard op) (Functor.discard op') := by
  intro s s' hs
  obtain ⟨hr, hs'⟩ := h s s' hs
  rw [perform_discard, perform_discard]
  refine ⟨?_, hs'⟩
  generalize (op.perform s).1 = r, (op'.perform s').1 = r' at hr
  cases hr with
  | ok h => exact .ok rfl
  | error h => exact .error h

theorem forM {f : β → Transition σ PUnit} {f' : β → Transition σ' PUnit} :
    ∀ {xs : List β}, (∀ x ∈ xs, Related R Eq E (f x) (f' x)) →
      Related R Eq E (xs.forM f) (xs.forM f')
  | [], _ => pure rfl
  | x :: xs, h => by
    show Related R Eq E (f x >>= fun _ => xs.forM f) (f' x >>= fun _ => xs.forM f')
    exact (h x (by simp)).bind fun _ _ _ => forM fun y hy => h y (by simp [hy])

end Related

end Transition

end Multistage
