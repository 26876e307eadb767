/-
Multistage.Proofs.Tensor — cutting entries into rows and joining them again.

Nested lists are read as an array of the leading dimensions along which they are
regular.  So an array that has been read has as many entries as its shape says
(`Tensor.ofValue_isRectangular`).
-/
import Multistage.Proofs.Except
import Multistage.Tensor

namespace Multistage

namespace Tensor

-- Products are the plain ones, also where a library of algebra offers its own.
attribute [local instance (high)] One.ofOfNat1

variable {α : Type}

/-- As many entries as the shape of an array says. -/
def IsRectangular (t : Tensor α) : Prop := t.entries.length = t.shape.prod

/-! ## Rows -/

@[simp] theorem length_chunks (width count : Nat) (xs : List α) :
    (chunks width count xs).length = count := by
  induction count generalizing xs with
  | zero => rfl
  | succ count ih => simp [chunks, ih]

theorem length_of_mem_chunks {width count : Nat} {xs row : List α}
    (h : xs.length = count * width) (hrow : row ∈ chunks width count xs) : row.length = width := by
  induction count generalizing xs with
  | zero => simp [chunks] at hrow
  | succ count ih =>
    rw [Nat.succ_mul] at h
    rw [chunks, List.mem_cons] at hrow
    rcases hrow with rfl | hrow
    · rw [List.length_take]
      omega
    · exact ih (by rw [List.length_drop]; omega) hrow

theorem mem_of_mem_chunks {width count : Nat} {xs row : List α} {a : α}
    (hrow : row ∈ chunks width count xs) (ha : a ∈ row) : a ∈ xs := by
  induction count generalizing xs with
  | zero => simp [chunks] at hrow
  | succ count ih =>
    rw [chunks, List.mem_cons] at hrow
    rcases hrow with rfl | hrow
    · exact List.mem_of_mem_take ha
    · exact List.mem_of_mem_drop (ih hrow)

/-- Rows of one width are what their joined entries are cut into. -/
theorem chunks_flatten {width : Nat} {rows : List (List α)} (h : ∀ row ∈ rows, row.length = width) :
    chunks width rows.length rows.flatten = rows := by
  induction rows with
  | nil => rfl
  | cons row rows ih =>
    have hrow : row.length = width := h row (by simp)
    rw [List.length_cons, chunks, List.flatten_cons, List.take_left' hrow, List.drop_left' hrow,
      ih fun r hr => h r (by simp [hr])]

theorem chunks_map {β : Type} (f : α → β) (width count : Nat) (xs : List α) :
    chunks width count (xs.map f) = (chunks width count xs).map (List.map f) := by
  induction count generalizing xs with
  | zero => rfl
  | succ count ih => rw [chunks, chunks, List.map_cons, List.map_take, ← List.map_drop, ih]

/-! ## Single numbers -/

/-- A single number as a tensor. -/
def single (a : α) : Tensor α := ⟨[], [a]⟩

theorem parts_vector (xs : List α) : (vector xs).parts = xs.map single := by
  have hchunks : chunks 1 xs.length xs = xs.map fun a => [a] := by
    induction xs with
    | nil => rfl
    | cons a xs ih => simpa [chunks] using ih
  show (chunks [].prod xs.length xs).map (Tensor.mk []) = _
  rw [List.prod_nil, hchunks, List.map_map]
  rfl

theorem stack_single (xs : List α) : stack (xs.map single) = .ok (vector xs) := by
  have hshape : ((xs.map single).head?.map Tensor.shape).getD [] = [] := by
    cases xs <;> rfl
  unfold stack
  rw [hshape]
  simp [single, vector, List.flatMap_map]

/-! ## Rows -/

/-- Rows of one length, of which there are some, stack to a matrix. -/
theorem stack_vectors {width : Nat} {rows : List (List α)} (h : ∀ row ∈ rows, row.length = width)
    (hsome : rows ≠ []) : stack (rows.map vector) = .ok (ofRows width rows) := by
  obtain ⟨row, rest, rfl⟩ := List.exists_cons_of_ne_nil hsome
  have hshape : ((((row :: rest).map vector).head?.map Tensor.shape).getD []) = [width] :=
    congrArg (fun n => [n]) (h row List.mem_cons_self)
  have hall : ((row :: rest).map vector).all (fun t => t.shape == [width]) = true := by
    rw [List.all_map, List.all_eq_true]
    intro other hother
    simp [vector, h other hother]
  have hentries : ((row :: rest).map vector).flatMap Tensor.entries = (row :: rest).flatten := by
    rw [List.flatMap_map]
    exact List.flatMap_id
  unfold stack ofRows
  rw [hshape, if_pos hall, hentries, List.length_map]

/-! ## Nested lists -/

theorem commonStart_isPrefix (as bs : List Nat) :
    commonStart as bs <+: as ∧ commonStart as bs <+: bs := by
  induction as generalizing bs with
  | nil => simp [commonStart]
  | cons a as ih =>
    cases bs with
    | nil => simp [commonStart]
    | cons b bs =>
      rw [commonStart]
      split
      · next h =>
        subst h
        obtain ⟨hleft, hright⟩ := ih bs
        exact ⟨List.prefix_cons_inj a |>.mpr hleft, List.prefix_cons_inj a |>.mpr hright⟩
      · exact ⟨List.nil_prefix, List.nil_prefix⟩

/-- What items share are leading dimensions of every item. -/
theorem sharedShape_isPrefix {items : List Value} {v : Value} (h : v ∈ items) :
    sharedShape items <+: regularShape v := by
  induction items with
  | nil => cases h
  | cons u items ih =>
    obtain _ | ⟨w, items⟩ := items
    · have hone : sharedShape [u] = regularShape v := by
        rw [List.mem_singleton.mp h, sharedShape]
      exact ⟨[], by rw [List.append_nil, hone]⟩
    rw [sharedShape]
    · obtain ⟨hleft, hright⟩ := commonStart_isPrefix (regularShape u) (sharedShape (w :: items))
      rcases List.mem_cons.mp h with rfl | h
      · exact hleft
      · exact hright.trans (ih h)
    · simp

theorem length_flatten_mapM {f : Value → Option (List α)} {n : Nat} {items : List Value}
    {parts : List (List α)} (hf : ∀ v ∈ items, ∀ part, f v = some part → part.length = n)
    (h : items.mapM f = some parts) : parts.flatten.length = items.length * n := by
  induction items generalizing parts with
  | nil =>
    rw [List.mapM_nil] at h
    cases h
    simp
  | cons v items ih =>
    simp only [List.mapM_cons, Option.bind_eq_bind, Option.bind_eq_some_iff, Option.pure_def,
      Option.some.injEq] at h
    obtain ⟨part, hpart, rest, hrest, rfl⟩ := h
    rw [List.flatten_cons, List.length_append, hf v List.mem_cons_self part hpart,
      ih (fun w hw => hf w (List.mem_cons_of_mem v hw)) hrest, List.length_cons, Nat.succ_mul,
      Nat.add_comm]

/-- As many values stand at a depth as the leading dimensions say. -/
theorem length_leavesAt {depth : Nat} {v : Value} {leaves : List Value}
    (h : leavesAt depth v = some leaves) (hdepth : depth ≤ (regularShape v).length) :
    leaves.length = ((regularShape v).take depth).prod := by
  induction depth generalizing v leaves with
  | zero =>
    cases v <;> simp [leavesAt] at h <;> simp [← h]
  | succ depth ih =>
    cases v with
    | list items =>
      rw [regularShape, List.length_cons] at hdepth
      rw [leavesAt] at h
      obtain ⟨parts, hparts, rfl⟩ := Option.map_eq_some_iff.mp h
      rw [regularShape, List.take_succ_cons, List.prod_cons]
      refine length_flatten_mapM (fun u hu part hpart => ?_) hparts
      have hshared := sharedShape_isPrefix hu
      rw [ih hpart (Nat.le_trans (Nat.le_of_succ_le_succ hdepth) hshared.length_le),
        List.prefix_iff_eq_take.mp hshared, List.take_take,
        Nat.min_eq_left (Nat.le_of_succ_le_succ hdepth)]
    | _ => simp [leavesAt] at h

theorem ofNested_isRectangular {v : Value} {t : Tensor Value} (h : ofNested v = .ok t) :
    t.IsRectangular := by
  unfold ofNested at h
  dsimp only at h
  split at h
  · next leaves hleaves =>
    cases h
    have hlen := length_leavesAt hleaves (List.take_prefix maxRank _).length_le
    exact hlen.trans
      (congrArg List.prod (List.prefix_iff_eq_take.mp (List.take_prefix maxRank _)).symm)
  · cases h

/-- What is read as an array has as many entries as its shape says. -/
theorem ofValue_isRectangular {v : Value} {t : Tensor Float} (h : ofValue v = .ok t) :
    t.IsRectangular := by
  unfold ofValue at h
  obtain ⟨nested, hnested, h⟩ := bind_eq_ok.mp h
  obtain ⟨entries, hentries, h⟩ := bind_eq_ok.mp h
  cases h
  rw [IsRectangular, ← (mapM_eq_ok.mp hentries).length_eq]
  exact ofNested_isRectangular hnested

end Tensor

end Multistage
