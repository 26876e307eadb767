/-
Multistage.Proofs.Except — computations that may fail, when they succeed.

A sequence of steps and checks succeeds exactly if every step does and no
check objects.  These equivalences take a successful computation apart into
the results of its steps.
-/
import Multistage.Failure
import Mathlib.Data.List.Forall2

namespace Multistage

variable {ε α β γ : Type}

/-! ## Steps and checks -/

@[simp] theorem ok_bind (a : α) (f : α → Except ε β) : (Except.ok a >>= f) = f a :=
  rfl

@[simp] theorem error_bind (e : ε) (f : α → Except ε β) : (Except.error e >>= f) = .error e :=
  rfl

theorem throw_bind (e : ε) (f : α → Except ε β) : ((throw e : Except ε α) >>= f) = .error e :=
  rfl

theorem bind_eq_ok {x : Except ε α} {f : α → Except ε β} {b : β} :
    (x >>= f) = .ok b ↔ ∃ a, x = .ok a ∧ f a = .ok b := by
  cases x with
  | ok a => simp
  | error e => simp

theorem pure_eq_ok {a b : α} : (pure a : Except ε α) = .ok b ↔ a = b :=
  Except.ok.injEq a b ▸ Iff.rfl

theorem eq_ok_of_toOption {x : Except ε α} {a : α} (h : x.toOption = some a) : x = .ok a := by
  cases x with
  | ok b => exact congrArg Except.ok (Option.some.inj h)
  | error e => cases h

/-- A check that fails ends a computation, whatever would come next. -/
theorem guard_eq_ok {c : Prop} [Decidable c] {e : ε} {f : α → Except ε β} {x : Except ε β} {b : β} :
    (if c then (throw e >>= f) else x) = .ok b ↔ ¬c ∧ x = .ok b := by
  by_cases h : c
  · simpa [h] using nofun
  · simp [h]

/-! ## Lists of steps -/

theorem mapM_eq_ok {f : α → Except ε β} :
    ∀ {xs : List α} {ys : List β}, xs.mapM f = .ok ys ↔ List.Forall₂ (fun x y => f x = .ok y) xs ys
  | [], ys => by
    rw [List.mapM_nil, pure_eq_ok, List.forall₂_nil_left_iff]
    exact eq_comm
  | x :: xs, ys => by
    rw [List.mapM_cons, bind_eq_ok]
    constructor
    · rintro ⟨y, hy, h⟩
      obtain ⟨ys', hys', h⟩ := bind_eq_ok.mp h
      rw [← pure_eq_ok.mp h]
      exact .cons hy (mapM_eq_ok.mp hys')
    · intro h
      cases h with
      | cons hy hys => exact ⟨_, hy, bind_eq_ok.mpr ⟨_, mapM_eq_ok.mpr hys, rfl⟩⟩

/-- If a list of steps succeeds, every step does. -/
theorem exists_of_mapM_eq_ok {f : α → Except ε β} {xs : List α} {ys : List β}
    (h : xs.mapM f = .ok ys) : ∀ x ∈ xs, ∃ y, f x = .ok y :=
  ((List.forall₂_and_left xs ys).mp ((mapM_eq_ok.mp h).imp fun _ y hy => ⟨⟨y, hy⟩, hy⟩)).1

/-- Results of two lists of steps over the same items are related if those of each
item are. -/
theorem mapM_forall₂ {f : α → Except ε β} {g : α → Except ε γ} {R : β → γ → Prop} {xs : List α}
    {ys : List β} {zs : List γ} (hf : xs.mapM f = .ok ys) (hg : xs.mapM g = .ok zs)
    (hR : ∀ x ∈ xs, ∀ y z, f x = .ok y → g x = .ok z → R y z) : List.Forall₂ R ys zs := by
  rw [mapM_eq_ok] at hf hg
  induction hf generalizing zs with
  | nil =>
    cases hg
    exact .nil
  | cons hy _ ih =>
    cases hg with
    | cons hz hzs =>
      exact .cons (hR _ (by simp) _ _ hy hz) (ih hzs fun x hx => hR x (by simp [hx]))

/-- A list of steps fails with the failure of the first step that fails. -/
theorem mapM_eq_error {f : α → Except ε β} {e : ε} :
    ∀ {xs : List α}, xs.mapM f = .error e
      ↔ ∃ earlier x later, xs = earlier ++ x :: later ∧ f x = .error e ∧
          ∀ y ∈ earlier, ∃ b, f y = .ok b
  | [] => by
    rw [List.mapM_nil]
    refine iff_of_false nofun ?_
    rintro ⟨earlier, x, later, h, -⟩
    simp at h
  | x :: xs => by
    rw [List.mapM_cons]
    cases hx : f x with
    | error e' =>
      constructor
      · rintro ⟨⟩
        exact ⟨[], x, xs, rfl, hx, by simp⟩
      · rintro ⟨earlier, y, later, h, hy, hearlier⟩
        cases earlier with
        | nil =>
          cases h
          rw [hx] at hy
          cases hy
          rfl
        | cons z earlier =>
          cases h
          obtain ⟨b, hb⟩ := hearlier x (by simp)
          rw [hx] at hb
          cases hb
    | ok b =>
      have htail : (Except.ok b >>= fun b => xs.mapM f >>= fun bs => pure (b :: bs)) = .error e
          ↔ xs.mapM f = .error e := by
        rw [ok_bind]
        cases xs.mapM f with
        | error e' => simp
        | ok bs => exact iff_of_false nofun nofun
      -- the first step is no failure, so the failure is one of the others
      rw [htail, mapM_eq_error]
      constructor
      · rintro ⟨earlier, y, later, rfl, hy, hearlier⟩
        refine ⟨x :: earlier, y, later, rfl, hy, ?_⟩
        rw [List.forall_mem_cons]
        exact ⟨⟨b, hx⟩, hearlier⟩
      · rintro ⟨earlier, y, later, h, hy, hearlier⟩
        cases earlier with
        | nil =>
          cases h
          rw [hx] at hy
          cases hy
        | cons z earlier =>
          cases h
          exact ⟨earlier, y, later, rfl, hy, fun w hw => hearlier w (by simp [hw])⟩

/-- Steps that do the same on all items. -/
theorem mapM_congr {f g : α → Except ε β} :
    ∀ {xs : List α}, (∀ x ∈ xs, f x = g x) → xs.mapM f = xs.mapM g
  | [], _ => rfl
  | x :: xs, h => by
    obtain ⟨hx, hxs⟩ := List.forall_mem_cons.mp h
    rw [List.mapM_cons, List.mapM_cons, hx, mapM_congr hxs]

/-- What is made of the results of steps may be made of them afterwards. -/
theorem mapM_map (f : α → Except ε β) (g : β → γ) :
    ∀ xs : List α, (xs.mapM fun x => (f x).map g) = (xs.mapM f).map (List.map g)
  | [] => rfl
  | x :: xs => by
    rw [List.mapM_cons, List.mapM_cons, mapM_map f g xs]
    cases f x with
    | error e => rfl
    | ok b => cases xs.mapM f <;> rfl

theorem forM_eq_ok {f : α → Except ε Unit} :
    ∀ {xs : List α}, xs.forM f = .ok () ↔ ∀ x ∈ xs, f x = .ok ()
  | [] => ⟨fun _ _ h => (List.not_mem_nil h).elim, fun _ => rfl⟩
  | x :: xs => by
    show (f x >>= fun _ => xs.forM f) = _ ↔ _
    rw [bind_eq_ok, List.forall_mem_cons, ← forM_eq_ok]
    exact ⟨fun ⟨_, hx, h⟩ => ⟨hx, h⟩, fun ⟨hx, h⟩ => ⟨_, hx, h⟩⟩

/-- A selection that leaves items out, and makes of the others what a function makes of
them. -/
theorem sublist_of_filterMapM {f : α → Except ε (Option β)} {g : α → β}
    (hf : ∀ x y, f x = .ok (some y) → y = g x) :
    ∀ {xs : List α} {ys : List β}, xs.filterMapM f = .ok ys → ys.Sublist (xs.map g)
  | [], ys, h => by
    cases pure_eq_ok.mp h
    exact .slnil
  | x :: xs, ys, h => by
    rw [List.filterMapM_cons] at h
    obtain ⟨r, hr, h⟩ := bind_eq_ok.mp h
    rw [List.map_cons]
    cases r with
    | none => exact (sublist_of_filterMapM hf h).cons _
    | some b =>
      obtain ⟨rest, hrest, h⟩ := bind_eq_ok.mp h
      cases pure_eq_ok.mp h
      rw [hf x b hr]
      exact (sublist_of_filterMapM hf hrest).cons_cons _

end Multistage
