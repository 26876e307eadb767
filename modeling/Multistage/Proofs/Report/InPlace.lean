/-
Multistage.Proofs.Report.InPlace — tables joined in place.

Lists that are joined in place are lists in a memory, and a table that lends them out has to
find them unchanged.  `Memory.reduce` copies the lists of the first table and puts the entries
of the others to the ends of the copies, one column after another, until it is done or finds
that the tables disagree.  Its outcome is that of `Table.joinAll`, and whatever the outcome
is, only lists have changed that it has made itself (`Memory.reduce_spec`).  The proof follows
the footprint of a column, which are the addresses of its lists: no step changes a list
outside the footprint of the column that it works on, and the footprints of copied columns
have nothing in common with each other or with lists that were there before.
-/
import Multistage.Proofs.Report.Table
import Multistage.Proofs.Transition
import Mathlib.Logic.Function.Basic

namespace Multistage

variable {ε : Type}

/-! ## Lists in memory -/

/-- What stands in a list: an entry, or another list by its address. -/
inductive Slot (ε : Type) where
  | entry (e : ε)
  | ref (address : Nat)

namespace Slot

/-- The address of a list. -/
def address : Slot ε → Except Failure Nat
  | entry _ => .error .wrongKind
  | ref a => .ok a

def ref? : Slot ε → Option Nat
  | entry _ => none
  | ref a => some a

end Slot

/-- Lists by their addresses, which are free from `size` on. -/
structure Memory (ε : Type) where
  lists : Nat → List (Slot ε)
  size : Nat

namespace Memory

/-- Makes a new list. -/
def create (items : List (Slot ε)) : Transition (Memory ε) Nat := do
  let mem ← get
  set { mem with lists := Function.update mem.lists mem.size items, size := mem.size + 1 }
  return mem.size

/-- Makes a copy of a list. -/
def copy (a : Nat) : Transition (Memory ε) Nat := do create ((← get).lists a)

/-- The memory with what is in a list put to the end of another one. -/
def extended (mem : Memory ε) (a b : Nat) : Memory ε :=
  { mem with lists := Function.update mem.lists a (mem.lists a ++ mem.lists b) }

/-- Puts what is in a list to the end of another one. -/
def extend (a b : Nat) : Transition (Memory ε) PUnit := modify fun mem => mem.extended a b

/-- Makes copies of the lists of stages. -/
def copyStages (stages : List (Slot ε)) : Transition (Memory ε) (List Nat) :=
  stages.mapM fun stage => do copy (← Transition.outcome stage.address)

/-- Copies a column with its lists. -/
def copyColumn (key : Value) (a : Nat) : Transition (Memory ε) Nat := do
  if key = objectiveKey then copy a
  else
    let stages ← copyStages ((← get).lists a)
    create (stages.map .ref)

/-- Puts the entries of stages to the ends of the lists of other stages, one by one. -/
def extendStages : List (Slot ε) → List (Slot ε) → Transition (Memory ε) PUnit
  | stage :: stages, extra :: extras => do
    extend (← Transition.outcome stage.address) (← Transition.outcome extra.address)
    extendStages stages extras
  | _, _ => return

/-- Puts the entries of the stages of a column to the ends of those of another one, if it has
as many. -/
def mergeStages (key : Value) (a b : Nat) : Transition (Memory ε) PUnit := do
  let stages := (← get).lists a
  let extras := (← get).lists b
  if extras.length ≠ stages.length then
    throw (.inconsistent (.stageCount key extras.length stages.length))
  extendStages stages extras

/-- Puts the entries of the column of a name to the ends of the lists of another one. -/
def mergeColumn (result : Named Nat) (key : Value) (a : Nat) : Transition (Memory ε) PUnit :=
  match result.get? key with
  | none => throw (.inconsistent (.missingKey key))
  | some b => if key = objectiveKey then extend a b else mergeStages key a b

/-- Puts the entries of a table to the ends of the lists of another one. -/
def merge (total result : Named Nat) : Transition (Memory ε) PUnit := do
  let surplus ← Transition.outcome
    (Named.sortNames ((result.map Prod.fst).filter fun key => (total.get? key).isNone))
  if !surplus.isEmpty then throw (.inconsistent (.surplusKeys surplus))
  total.forM fun (key, a) => mergeColumn result key a

/-- Joins tables: the lists of the first one are copied, and those of the others are put to
the ends of the copies. -/
def reduce : List (Named Nat) → Transition (Memory ε) (Named Nat)
  | [] => return []
  | first :: rest => do
    let total ← first.mapM fun (key, a) => do return (key, ← copyColumn key a)
    rest.forM (merge total)
    return total

/-! ## Columns in memory -/

variable {mem mem' : Memory ε} {a b : Nat} {c : Column ε} {key : Value}

/-- Whether a list holds some entries. -/
def HoldsList (mem : Memory ε) (a : Nat) (entries : List ε) : Prop :=
  mem.lists a = entries.map .entry

/-- Whether a list holds a column: its entries, or the lists of its stages. -/
def Holds (mem : Memory ε) (a : Nat) : Column ε → Prop
  | .flat entries => mem.HoldsList a entries
  | .staged lists =>
    ∃ stages, mem.lists a = stages.map .ref ∧ List.Forall₂ mem.HoldsList stages lists

/-- The addresses of a list and of the lists in it. -/
def footprint (mem : Memory ε) (a : Nat) : List Nat := a :: (mem.lists a).filterMap Slot.ref?

theorem mem_footprint_self : a ∈ mem.footprint a := List.mem_cons_self

theorem footprint_flat {entries : List ε} (h : mem.HoldsList a entries) :
    mem.footprint a = [a] := by
  have hnone : (entries.map Slot.entry).filterMap Slot.ref? = [] := by
    simp [Slot.ref?]
  rw [footprint, h, hnone]

theorem footprint_staged {stages : List Nat} (h : mem.lists a = stages.map .ref) :
    mem.footprint a = a :: stages := by
  have hall : (stages.map (Slot.ref : Nat → Slot ε)).filterMap Slot.ref? = stages :=
    List.filterMap_map.trans List.filterMap_some
  rw [footprint, h, hall]

/-- A column is held as long as no list in its footprint changes. -/
theorem Holds.of_same (h : mem.Holds a c)
    (hsame : ∀ x ∈ mem.footprint a, mem'.lists x = mem.lists x) :
    mem'.Holds a c ∧ mem'.footprint a = mem.footprint a := by
  have ha := hsame a mem_footprint_self
  refine ⟨?_, by rw [footprint, footprint, ha]⟩
  cases c with
  | flat entries => exact ha.trans h
  | staged lists =>
    obtain ⟨stages, hstages, hlists⟩ := h
    rw [footprint_staged hstages] at hsame
    refine ⟨stages, ha.trans hstages, ?_⟩
    have hboth := (List.forall₂_and_left stages lists).mpr
      ⟨fun s hs => hsame s (List.mem_cons_of_mem a hs), hlists⟩
    exact hboth.imp fun s entries hs => hs.1.trans hs.2

/-! ## Single columns -/

theorem extended_same (mem : Memory ε) {a b x : Nat} (h : x ≠ a) :
    (mem.extended a b).lists x = mem.lists x :=
  Function.update_of_ne h _ _

theorem HoldsList.extended {xs ys : List ε} (ha : mem.HoldsList a xs) (hb : mem.HoldsList b ys) :
    (mem.extended a b).HoldsList a (xs ++ ys) := by
  have hlist : (mem.extended a b).lists a = mem.lists a ++ mem.lists b := Function.update_self ..
  rw [HoldsList, hlist, ha, hb, List.map_append]

/-- Lists are held as long as none of them changes. -/
theorem HoldsList.forall_of_same {addresses : List Nat} {lists : List (List ε)}
    (h : List.Forall₂ mem.HoldsList addresses lists)
    (hsame : ∀ x ∈ addresses, mem'.lists x = mem.lists x) :
    List.Forall₂ mem'.HoldsList addresses lists :=
  ((List.forall₂_and_left addresses lists).mpr ⟨hsame, h⟩).imp fun _ _ h => h.1.trans h.2

/-- Stages get the entries of further stages, and no other list changes. -/
theorem extendStages_spec {stages extras : List Nat} {xs ys : List (List ε)}
    (hnodup : stages.Nodup) (hextras : ∀ b ∈ extras, b ∉ stages) (hlength : xs.length = ys.length)
    (hxs : List.Forall₂ mem.HoldsList stages xs) (hys : List.Forall₂ mem.HoldsList extras ys) :
    ∃ mem', (extendStages (stages.map .ref) (extras.map .ref)).perform mem = (.ok ⟨⟩, mem') ∧
      (∀ x ∉ stages, mem'.lists x = mem.lists x) ∧
      List.Forall₂ mem'.HoldsList stages (List.zipWith (· ++ ·) xs ys) := by
  induction stages generalizing extras xs ys mem with
  | nil =>
    cases hxs
    exact ⟨mem, rfl, fun _ _ => rfl, .nil⟩
  | cons a stages ih =>
    cases hxs with
    | cons ha hxs =>
    cases hys with
    | nil => simp at hlength
    | cons hb hys =>
      rename_i b _ extras _
      obtain ⟨hnew, hnodup⟩ := List.nodup_cons.mp hnodup
      obtain ⟨hb', hextras⟩ := List.forall_mem_cons.mp hextras
      -- neither the other stages nor the other entries are in the list that is extended
      have hxs' := HoldsList.forall_of_same hxs fun s hs =>
        extended_same mem (a := a) (b := b) fun h => hnew (h ▸ hs)
      have hys' := HoldsList.forall_of_same hys fun s hs =>
        extended_same mem (a := a) (b := b) fun h => hextras s hs (h ▸ List.mem_cons_self)
      obtain ⟨mem', hperform, hsame, hheld⟩ := ih hnodup
        (fun s hs hmem => hextras s hs (List.mem_cons_of_mem a hmem)) (Nat.succ.inj hlength)
        hxs' hys'
      refine ⟨mem', hperform, fun x hx => ?_, .cons ?_ hheld⟩
      · rw [List.mem_cons, not_or] at hx
        exact (hsame x hx.2).trans (extended_same mem hx.1)
      · exact (hsame a hnew).trans (ha.extended hb)

/-- The stages of a column get the entries of as many further ones, or nothing changes. -/
theorem mergeStages_spec {as bs : List (List ε)} (ha : mem.Holds a (.staged as))
    (hb : mem.Holds b (.staged bs)) (hnodup : (mem.footprint a).Nodup)
    (hdisjoint : ∀ x ∈ mem.footprint b, x ∉ mem.footprint a) :
    ∃ r mem', (mergeStages key a b).perform mem = (r, mem') ∧
      (∀ x ∉ mem.footprint a, mem'.lists x = mem.lists x) ∧
      Transition.Alike (fun _ d => mem'.Holds a d ∧ mem'.footprint a = mem.footprint a) Eq
        r ((Column.staged as).join key (some (.staged bs))) := by
  obtain ⟨stages, hstages, has⟩ := ha
  obtain ⟨extras, hextras, hbs⟩ := hb
  rw [footprint_staged hstages] at hnodup hdisjoint ⊢
  rw [footprint_staged hextras] at hdisjoint
  obtain ⟨hnew, hnodup⟩ := List.nodup_cons.mp hnodup
  have hstages' : (mem.lists a).length = as.length := by
    rw [hstages, List.length_map, has.length_eq]
  have hextras' : (mem.lists b).length = bs.length := by
    rw [hextras, List.length_map, hbs.length_eq]
  unfold mergeStages Column.join
  simp only [Transition.perform_bind, Transition.perform_get, hstages', hextras']
  by_cases hlength : as.length = bs.length
  · have hothers : ∀ x ∈ extras, x ∉ stages := fun x hx hmem =>
      hdisjoint x (List.mem_cons_of_mem b hx) (List.mem_cons_of_mem a hmem)
    obtain ⟨mem', hperform, hsame, hheld⟩ := extendStages_spec hnodup hothers hlength has hbs
    have houter : mem'.lists a = stages.map .ref := (hsame a hnew).trans hstages
    refine ⟨.ok ⟨⟩, mem', ?_, fun x hx => ?_, ?_⟩
    · rw [if_neg (not_not.mpr hlength.symm), hstages, hextras]
      exact hperform
    · exact hsame x fun hmem => hx (List.mem_cons_of_mem a hmem)
    · rw [if_pos ⟨rfl, hlength⟩]
      exact .ok ⟨⟨stages, houter, hheld⟩, footprint_staged houter⟩
  · refine ⟨.error (.inconsistent (.stageCount key bs.length as.length)), mem, ?_,
      fun _ _ => rfl, ?_⟩
    · rw [if_pos (Ne.symm hlength)]
      rfl
    · rw [if_neg fun h => hlength h.2]
      exact .error rfl

/-- A column gets the entries of the column of its name, if it fits, and no list outside its
footprint changes. -/
theorem mergeColumn_spec {result : Named Nat} {c' : Option (Column ε)} (ha : mem.Holds a c)
    (hnodup : (mem.footprint a).Nodup) (hkey : c.isFlat = true ↔ key = objectiveKey)
    (hresult : Option.Rel (fun b d => mem.Holds b d ∧ d.isFlat = c.isFlat ∧
      ∀ x ∈ mem.footprint b, x ∉ mem.footprint a) (result.get? key) c') :
    ∃ r mem', (mergeColumn result key a).perform mem = (r, mem') ∧
      (∀ x ∉ mem.footprint a, mem'.lists x = mem.lists x) ∧
      Transition.Alike (fun _ d => mem'.Holds a d ∧ mem'.footprint a = mem.footprint a) Eq
        r (c.join key c') := by
  unfold mergeColumn
  generalize result.get? key = found at hresult ⊢
  cases hresult with
  | none => exact ⟨_, mem, rfl, fun _ _ => rfl, .error rfl⟩
  | some hfound =>
    obtain ⟨hb, hflat, hdisjoint⟩ := hfound
    rename_i b d
    cases c <;> cases d
    case flat.flat as bs =>
      have hfootprint := footprint_flat ha
      have hheld := HoldsList.extended ha hb
      refine ⟨.ok ⟨⟩, mem.extended a b, ?_, fun x hx => ?_, ?_⟩
      · simp only [hkey.mp rfl, if_true]
        rfl
      · rw [hfootprint, List.mem_singleton] at hx
        exact extended_same mem hx
      · refine .ok ⟨hheld, ?_⟩
        rw [footprint_flat hheld, hfootprint]
    case staged.staged as bs =>
      have hstaged : ¬key = objectiveKey := fun h => nomatch hkey.mpr h
      simp only [hstaged, if_false]
      exact mergeStages_spec ha hb hnodup hdisjoint
    case flat.staged => cases hflat
    case staged.flat => cases hflat

/-! ## Tables in memory -/

variable {base : Nat} {refs total result : Named Nat} {columns : Named (Column ε)}
  {t u : WorkerTable ε}

/-- Whether the lists of a table hold columns. -/
def Stores (mem : Memory ε) (refs : Named Nat) (columns : Named (Column ε)) : Prop :=
  List.Forall₂ (fun r e => r.1 = e.1 ∧ mem.Holds r.2 e.2) refs columns

/-- The addresses of all lists of a table. -/
def reach (mem : Memory ε) (refs : Named Nat) : List Nat := refs.flatMap fun r => mem.footprint r.2

/-- Whether a table has its columns in lists from an address on, which all are different. -/
structure Owns (mem : Memory ε) (base : Nat) (refs : Named Nat) (columns : Named (Column ε)) :
    Prop where
  stores : mem.Stores refs columns
  nodup : (mem.reach refs).Nodup
  above : ∀ x ∈ mem.reach refs, base ≤ x

/-- Whether a table has its columns in lists below an address. -/
structure Lends (mem : Memory ε) (base : Nat) (refs : Named Nat) (columns : Named (Column ε)) :
    Prop where
  stores : mem.Stores refs columns
  below : ∀ x ∈ mem.reach refs, x < base

/-- A table is stored as long as no list of it changes. -/
theorem Stores.of_same (h : mem.Stores refs columns)
    (hsame : ∀ x ∈ mem.reach refs, mem'.lists x = mem.lists x) :
    mem'.Stores refs columns ∧ mem'.reach refs = mem.reach refs := by
  induction h with
  | nil => exact ⟨.nil, rfl⟩
  | cons hcolumn _ ih =>
    obtain ⟨hfirst, hrest⟩ := List.forall_mem_append.mp hsame
    obtain ⟨hheld, hfootprint⟩ := hcolumn.2.of_same hfirst
    obtain ⟨hstored, hreach⟩ := ih hrest
    refine ⟨.cons ⟨hcolumn.1, hheld⟩ hstored, ?_⟩
    show mem'.footprint _ ++ mem'.reach _ = _
    rw [hfootprint, hreach]
    rfl

theorem Lends.of_same (h : mem.Lends base refs columns)
    (hsame : ∀ x < base, mem'.lists x = mem.lists x) : mem'.Lends base refs columns := by
  obtain ⟨hstored, hreach⟩ := h.stores.of_same fun x hx => hsame x (h.below x hx)
  exact ⟨hstored, fun x hx => h.below x (hreach ▸ hx)⟩

theorem Stores.map_fst (h : mem.Stores refs columns) :
    refs.map Prod.fst = columns.map Prod.fst := by
  induction h with
  | nil => rfl
  | cons hcolumn _ ih => simp [hcolumn.1, ih]

/-- Names are found in a table as among the columns that it stores. -/
theorem Stores.get? (h : mem.Stores refs columns) (key : Value) :
    Option.Rel (fun b d => mem.Holds b d ∧ ∀ x ∈ mem.footprint b, x ∈ mem.reach refs)
      (refs.get? key) (columns.get? key) := by
  induction h with
  | nil => exact .none
  | @cons r e refs columns hcolumn _ ih =>
    obtain ⟨hname, hheld⟩ := hcolumn
    unfold Named.get? at ih ⊢
    rw [List.find?_cons, List.find?_cons]
    by_cases hsame : e.1.isSame key = true
    · simp only [hname, hsame]
      exact .some ⟨hheld, fun x hx => List.mem_append_left _ hx⟩
    · simp only [hname, hsame]
      have hlater := fun x (hx : x ∈ mem.reach refs) => List.mem_append_right (mem.footprint r.2) hx
      generalize (refs.find? _).map Prod.snd = found, (columns.find? _).map Prod.snd = column
        at ih ⊢
      cases ih with
      | none => exact .none
      | some hfound => exact .some ⟨hfound.1, fun x hx => hlater x (hfound.2 x hx)⟩

/-- Where a table lends out a column of a name, it is of the kind that the name has. -/
theorem Lends.get? (h : mem.Lends base result u.columns)
    (hkey : c.isFlat = true ↔ key = objectiveKey)
    (habove : ∀ x ∈ mem.footprint a, base ≤ x) :
    Option.Rel (fun b d => mem.Holds b d ∧ d.isFlat = c.isFlat ∧
      ∀ x ∈ mem.footprint b, x ∉ mem.footprint a) (result.get? key) (u.column? key) := by
  have hfound := h.stores.get? key
  have hkinds : ∀ d, u.column? key = some d → d.isFlat = c.isFlat := fun d hd => by
    rw [Bool.eq_iff_iff, u.kinds _ (WorkerTable.column?_eq_some.mp hd), hkey]
  unfold WorkerTable.column? at hkinds ⊢
  generalize result.get? key = found, u.columns.get? key = column at hfound hkinds ⊢
  cases hfound with
  | none => exact .none
  | some hfound =>
    refine .some ⟨hfound.1, hkinds _ rfl, fun x hx hmem => ?_⟩
    have hbelow := h.below x (hfound.2 x hx)
    have := habove x hmem
    omega

theorem Owns.of_stores (h : mem.Owns base refs columns) {columns' : Named (Column ε)}
    (hstores : mem'.Stores refs columns') (hreach : mem'.reach refs = mem.reach refs) :
    mem'.Owns base refs columns' :=
  ⟨hstores, hreach ▸ h.nodup, fun x hx => h.above x (hreach ▸ hx)⟩

theorem Owns.of_cons {a : Nat} (h : mem.Owns base ((key, a) :: refs) columns) :
    ∃ c rest, columns = (key, c) :: rest ∧ mem.Holds a c ∧ (mem.footprint a).Nodup ∧
      (∀ x ∈ mem.footprint a, base ≤ x) ∧ mem.Owns base refs rest ∧
        ∀ x ∈ mem.footprint a, x ∉ mem.reach refs := by
  obtain ⟨hstores, hnodup, habove⟩ := h
  obtain ⟨⟨_, c⟩, rest, ⟨rfl, hheld⟩, hrest, rfl⟩ := List.forall₂_cons_left_iff.mp hstores
  obtain ⟨hfirst, hlater, hdisjoint⟩ := List.nodup_append.mp hnodup
  obtain ⟨habove₁, habove₂⟩ : (∀ x ∈ mem.footprint a, base ≤ x) ∧
      ∀ x ∈ mem.reach refs, base ≤ x := List.forall_mem_append.mp habove
  exact ⟨c, rest, rfl, hheld, hfirst, habove₁, ⟨hrest, hlater, habove₂⟩,
    fun x hx hmem => hdisjoint x hx x hmem rfl⟩

/-- Columns get the entries of the columns of their names, one after another, until one does
not fit.  No list of another table changes. -/
theorem mergeColumns_spec (hown : mem.Owns base refs columns)
    (hkinds : ∀ e ∈ columns, e.2.isFlat = true ↔ e.1 = objectiveKey)
    (hlend : mem.Lends base result u.columns) :
    ∃ r mem', (refs.forM fun (key, a) => mergeColumn result key a).perform mem = (r, mem') ∧
      (∀ x ∉ mem.reach refs, mem'.lists x = mem.lists x) ∧
      Transition.Alike
        (fun _ columns' => mem'.Stores refs columns' ∧ mem'.reach refs = mem.reach refs) Eq
        r (columns.mapM fun e => do return (e.1, ← e.2.join e.1 (u.column? e.1))) := by
  induction refs generalizing mem columns with
  | nil =>
    cases hown.stores
    exact ⟨.ok ⟨⟩, mem, rfl, fun _ _ => rfl, .ok ⟨.nil, rfl⟩⟩
  | cons ref refs ih =>
    obtain ⟨key, a⟩ := ref
    obtain ⟨c, columns, rfl, hheld, hnodup, habove, hrest, hdisjoint⟩ := hown.of_cons
    obtain ⟨hkind, hkinds⟩ := List.forall_mem_cons.mp hkinds
    obtain ⟨r, mem₁, hperform, hsame, halike⟩ :=
      mergeColumn_spec hheld hnodup hkind (hlend.get? hkind habove)
    show ∃ r mem', (mergeColumn result key a >>= fun _ => refs.forM _).perform mem = _ ∧ _
    rw [List.mapM_cons]
    generalize c.join key (u.column? key) = joined at halike ⊢
    cases halike with
    | error h =>
      cases h
      refine ⟨.error _, mem₁, Transition.perform_bind_error hperform, fun x hx => ?_, .error rfl⟩
      exact hsame x fun hmem => hx (List.mem_append_left _ hmem)
    | @ok _ d h =>
      obtain ⟨hheld₁, hfootprint⟩ := h
      -- the lists of the other columns are not in the footprint of this one
      obtain ⟨hstores₁, hreach₁⟩ := hrest.stores.of_same fun x hx =>
        hsame x fun hmem => hdisjoint x hmem hx
      have hlend₁ : mem₁.Lends base result u.columns := hlend.of_same fun x hx =>
        hsame x fun hmem => Nat.not_lt_of_le (habove x hmem) hx
      have hown₁ : mem₁.Owns base refs columns := hrest.of_stores hstores₁ hreach₁
      obtain ⟨r', mem', hperform', hsame', halike'⟩ := ih hown₁ hkinds hlend₁
      rw [hreach₁] at hsame' halike'
      refine ⟨r', mem', (Transition.perform_bind_ok hperform).trans hperform', fun x hx => ?_, ?_⟩
      · obtain ⟨hx₁, hx₂⟩ := not_or.mp fun h => hx (List.mem_append.mpr h)
        exact (hsame' x hx₂).trans (hsame x hx₁)
      · have hfirst : ∀ x ∈ mem₁.footprint a, mem'.lists x = mem₁.lists x := fun x hx => by
          rw [hfootprint] at hx
          exact hsame' x (hdisjoint x hx)
        obtain ⟨hheld', hfootprint'⟩ := hheld₁.of_same hfirst
        generalize (columns.mapM fun e => do
          return (e.1, ← e.2.join e.1 (u.column? e.1)) : Except Failure _) = others at halike' ⊢
        cases halike' with
        | error h => exact .error h
        | ok h =>
          refine .ok ⟨.cons ⟨rfl, hheld'⟩ h.1, ?_⟩
          show mem'.footprint a ++ mem'.reach refs = _
          rw [hfootprint', hfootprint, h.2]
          rfl

/-! ## Joining tables in place -/

/-- A table gets the entries of a further one, unless they disagree. -/
theorem merge_spec (hown : mem.Owns base total t.columns)
    (hlend : mem.Lends base result u.columns) :
    ∃ r mem', (merge total result).perform mem = (r, mem') ∧
      (∀ x < base, mem'.lists x = mem.lists x) ∧
      Transition.Alike
        (fun _ joined => joined = (t.append u).table ∧ mem'.Owns base total (t.append u).columns) Eq
        r (t.table.join u.table) := by
  have hsurplus : (result.map Prod.fst).filter (fun key => (total.get? key).isNone)
      = t.surplus u := by
    rw [hlend.stores.map_fst]
    refine List.filter_congr fun key _ => ?_
    have hfound := hown.stores.get? key
    unfold WorkerTable.column?
    generalize total.get? key = found, t.columns.get? key = column at hfound ⊢
    cases hfound <;> rfl
  obtain ⟨sorted, hsorted, hempty⟩ := WorkerTable.exists_sorted_surplus t u
  unfold merge
  rw [WorkerTable.join_table, hsurplus, hsorted]
  simp only [Transition.perform_bind, Transition.perform_outcome, ok_bind]
  by_cases hnone : t.surplus u = []
  · rw [hnone] at hempty
    obtain ⟨r, mem', hperform, hsame, halike⟩ := mergeColumns_spec hown t.kinds hlend
    have hbelow : ∀ x < base, mem'.lists x = mem.lists x := fun x hx =>
      hsame x fun hmem => Nat.not_lt_of_le (hown.above x hmem) hx
    simp only [hempty]
    refine ⟨r, mem', hperform, hbelow, ?_⟩
    show Transition.Alike _ _ r ((t.joinColumns u).map _)
    change Transition.Alike _ _ r (t.joinColumns u) at halike
    cases hcolumns : t.joinColumns u with
    | error e =>
      rw [hcolumns] at halike
      cases halike with
      | error h => exact .error h
    | ok columns =>
      rw [hcolumns] at halike
      obtain rfl := WorkerTable.joinColumns_eq_ok hnone hcolumns
      cases halike with
      | ok h => exact .ok ⟨rfl, hown.of_stores h.1 h.2⟩
  · have hnonempty : sorted.isEmpty = false := by simpa [hempty] using hnone
    simp only [hnonempty]
    exact ⟨_, mem, rfl, fun _ _ => rfl, .error rfl⟩

/-- A table gets the entries of further ones, one after another. -/
theorem mergeAll_spec {rest : List (Named Nat)} {us : List (WorkerTable ε)}
    (hown : mem.Owns base total t.columns)
    (hlend : List.Forall₂ (fun refs u => mem.Lends base refs (WorkerTable.columns u)) rest us) :
    ∃ r mem', (rest.forM (merge total)).perform mem = (r, mem') ∧
      (∀ x < base, mem'.lists x = mem.lists x) ∧
      Transition.Alike
        (fun _ joined => ∃ t', joined = WorkerTable.table t' ∧ mem'.Owns base total t'.columns) Eq
        r ((us.map WorkerTable.table).foldlM Table.join t.table) := by
  induction rest generalizing mem t us with
  | nil =>
    cases hlend
    exact ⟨.ok ⟨⟩, mem, rfl, fun _ _ => rfl, .ok ⟨t, rfl, hown⟩⟩
  | cons refs rest ih =>
    obtain ⟨u, us, hfirst, hrest, rfl⟩ := List.forall₂_cons_left_iff.mp hlend
    obtain ⟨r, mem₁, hperform, hsame, halike⟩ := merge_spec hown hfirst
    show ∃ r mem', (merge total refs >>= fun _ => rest.forM _).perform mem = _ ∧ _
    rw [List.map_cons, List.foldlM_cons]
    generalize t.table.join u.table = joined at halike ⊢
    cases halike with
    | error h =>
      cases h
      exact ⟨_, mem₁, Transition.perform_bind_error hperform, hsame, .error rfl⟩
    | ok h =>
      obtain ⟨rfl, hown₁⟩ := h
      obtain ⟨r', mem', hperform', hsame', halike'⟩ :=
        ih hown₁ (hrest.imp fun _ _ h => h.of_same hsame)
      exact ⟨r', mem', (Transition.perform_bind_ok hperform).trans hperform',
        fun x hx => (hsame' x hx).trans (hsame x hx), halike'⟩

/-! ## Copies -/

/-- Whether a memory has become another one by making lists. -/
structure Grown (mem mem' : Memory ε) (made : List Nat) : Prop where
  size : mem.size ≤ mem'.size
  same : ∀ x < mem.size, mem'.lists x = mem.lists x
  nodup : made.Nodup
  new : ∀ x ∈ made, mem.size ≤ x ∧ x < mem'.size

theorem Grown.refl (mem : Memory ε) : mem.Grown mem [] :=
  ⟨Nat.le_refl _, fun _ _ => rfl, .nil, by simp⟩

theorem Grown.trans {mem₁ mem₂ : Memory ε} {made more : List Nat} (h : mem.Grown mem₁ made)
    (h' : mem₁.Grown mem₂ more) : mem.Grown mem₂ (made ++ more) where
  size := Nat.le_trans h.size h'.size
  same x hx := (h'.same x (Nat.lt_of_lt_of_le hx h.size)).trans (h.same x hx)
  nodup := by
    refine List.nodup_append.mpr ⟨h.nodup, h'.nodup, fun x hx y hy => ?_⟩
    have hbefore := (h.new x hx).2
    have hafter := (h'.new y hy).1
    omega
  new x hx := by
    have hsize := h.size
    have hsize' := h'.size
    rcases List.mem_append.mp hx with hx | hx
    · have := h.new x hx
      omega
    · have := h'.new x hx
      omega

theorem Grown.perm {made made' : List Nat} (h : mem.Grown mem' made) (hperm : made.Perm made') :
    mem.Grown mem' made' :=
  ⟨h.size, h.same, hperm.nodup_iff.mp h.nodup, fun x hx => h.new x (hperm.mem_iff.mpr hx)⟩

/-- The memory with a new list. -/
def created (mem : Memory ε) (items : List (Slot ε)) : Memory ε :=
  { mem with lists := Function.update mem.lists mem.size items, size := mem.size + 1 }

theorem create_perform (items : List (Slot ε)) (mem : Memory ε) :
    (create items).perform mem = (.ok mem.size, mem.created items) :=
  rfl

theorem created_new (mem : Memory ε) (items : List (Slot ε)) :
    (mem.created items).lists mem.size = items :=
  Function.update_self ..

theorem created_grown (mem : Memory ε) (items : List (Slot ε)) :
    mem.Grown (mem.created items) [mem.size] where
  size := Nat.le_succ _
  same x hx := Function.update_of_ne (Nat.ne_of_lt hx) _ _
  nodup := by simp
  new x hx := by
    obtain rfl := List.mem_singleton.mp hx
    exact ⟨Nat.le_refl _, Nat.lt_succ_self _⟩

/-- Copies of lists hold what the lists hold. -/
theorem copyStages_spec {stages : List Nat} {xs : List (List ε)}
    (hxs : List.Forall₂ mem.HoldsList stages xs) (hbelow : ∀ s ∈ stages, s < mem.size) :
    ∃ copies mem', (copyStages (stages.map .ref)).perform mem = (.ok copies, mem') ∧
      mem.Grown mem' copies ∧ List.Forall₂ mem'.HoldsList copies xs := by
  induction stages generalizing mem xs with
  | nil =>
    cases hxs
    exact ⟨[], mem, rfl, .refl mem, .nil⟩
  | cons s stages ih =>
    obtain ⟨x, xs, hx, hrest, rfl⟩ := List.forall₂_cons_left_iff.mp hxs
    obtain ⟨hs, hbelow⟩ := List.forall_mem_cons.mp hbelow
    have hgrown := created_grown mem (mem.lists s)
    obtain ⟨copies, mem', hperform, hgrown', hheld⟩ := ih
      (HoldsList.forall_of_same hrest fun x hx => hgrown.same x (hbelow x hx))
      fun x hx => Nat.lt_succ_of_lt (hbelow x hx)
    refine ⟨mem.size :: copies, mem', ?_, hgrown.trans hgrown', .cons ?_ hheld⟩
    · rw [copyStages, List.map_cons, List.mapM_cons]
      exact Transition.perform_bind_eq_ok.mpr ⟨mem.size, _, rfl,
        Transition.perform_bind_eq_ok.mpr ⟨copies, mem', hperform, rfl⟩⟩
    · exact (hgrown'.same _ (Nat.lt_succ_self _)).trans ((created_new _ _).trans hx)

/-- A copy of a column holds the column in new lists. -/
theorem copyColumn_spec (ha : mem.Holds a c) (hbelow : ∀ x ∈ mem.footprint a, x < mem.size)
    (hkey : c.isFlat = true ↔ key = objectiveKey) :
    ∃ a' mem', (copyColumn key a).perform mem = (.ok a', mem') ∧
      mem.Grown mem' (mem'.footprint a') ∧ mem'.Holds a' c := by
  unfold copyColumn
  cases c with
  | flat entries =>
    have hheld : (mem.created (mem.lists a)).HoldsList mem.size entries :=
      (created_new _ _).trans ha
    refine ⟨mem.size, mem.created (mem.lists a), ?_, ?_, hheld⟩
    · rw [if_pos (hkey.mp rfl)]
      rfl
    · rw [footprint_flat hheld]
      exact created_grown mem _
  | staged lists =>
    have hstaged : ¬key = objectiveKey := fun h => nomatch hkey.mpr h
    obtain ⟨stages, hstages, hlists⟩ := ha
    rw [footprint_staged hstages] at hbelow
    obtain ⟨copies, mem₁, hperform, hgrown, hheld⟩ :=
      copyStages_spec hlists fun s hs => hbelow s (List.mem_cons_of_mem a hs)
    have hcreated := created_grown mem₁ (copies.map .ref)
    have houter : (mem₁.created (copies.map .ref)).lists mem₁.size = copies.map .ref :=
      created_new _ _
    refine ⟨mem₁.size, mem₁.created (copies.map .ref), ?_, ?_, copies, houter, ?_⟩
    · rw [if_neg hstaged, Transition.perform_bind_ok (Transition.perform_get mem), hstages,
        Transition.perform_bind_ok hperform, create_perform]
    · rw [footprint_staged houter]
      exact (hgrown.trans hcreated).perm (List.perm_append_singleton _ _)
    · exact HoldsList.forall_of_same hheld fun x hx => hcreated.same x (hgrown.new x hx).2

/-- A copy of a table has its columns in new lists. -/
theorem copyColumns_spec (hstores : mem.Stores refs columns)
    (hkinds : ∀ e ∈ columns, e.2.isFlat = true ↔ e.1 = objectiveKey)
    (hbelow : ∀ x ∈ mem.reach refs, x < mem.size) :
    ∃ total mem', (refs.mapM fun (key, a) => do return (key, ← copyColumn key a)).perform mem
        = (.ok total, mem') ∧
      mem.Grown mem' (mem'.reach total) ∧ mem'.Stores total columns := by
  induction refs generalizing mem columns with
  | nil =>
    cases hstores
    exact ⟨[], mem, rfl, .refl mem, .nil⟩
  | cons ref refs ih =>
    obtain ⟨e, columns, ⟨hname, hheld⟩, hrest, rfl⟩ := List.forall₂_cons_left_iff.mp hstores
    obtain ⟨hkind, hkinds⟩ := List.forall_mem_cons.mp hkinds
    obtain ⟨hbelow₁, hbelow₂⟩ : (∀ x ∈ mem.footprint ref.2, x < mem.size) ∧
        ∀ x ∈ mem.reach refs, x < mem.size := List.forall_mem_append.mp hbelow
    obtain ⟨key, a⟩ := ref
    obtain rfl : key = e.1 := hname
    obtain ⟨a', mem₁, hperform, hgrown, hheld'⟩ := copyColumn_spec hheld hbelow₁ hkind
    obtain ⟨hrest₁, hreach₁⟩ := Stores.of_same hrest fun x hx => hgrown.same x (hbelow₂ x hx)
    obtain ⟨total, mem', hperform', hgrown', hstores'⟩ := ih hrest₁ hkinds fun x hx =>
      Nat.lt_of_lt_of_le (hbelow₂ x (hreach₁ ▸ hx)) hgrown.size
    obtain ⟨hheld'', hfootprint⟩ := hheld'.of_same fun x hx => hgrown'.same x (hgrown.new x hx).2
    refine ⟨(e.1, a') :: total, mem', ?_, ?_, .cons ⟨rfl, hheld''⟩ hstores'⟩
    · rw [List.mapM_cons]
      exact Transition.perform_bind_eq_ok.mpr ⟨(e.1, a'), mem₁,
        Transition.perform_bind_eq_ok.mpr ⟨a', mem₁, hperform, rfl⟩,
        Transition.perform_bind_eq_ok.mpr ⟨total, mem', hperform', rfl⟩⟩
    · show mem.Grown mem' (mem'.footprint a' ++ mem'.reach total)
      rw [hfootprint]
      exact hgrown.trans hgrown'

/-- Tables that are joined in place: the outcome is that of joining the tables that are
stored, and no list has changed that was there before, whatever the outcome is.  What they are
joined to stands in lists of its own. -/
theorem reduce_spec {tables : List (Named Nat)} {ts : List (WorkerTable ε)}
    (h : List.Forall₂ (fun refs t => mem.Lends mem.size refs (WorkerTable.columns t)) tables ts) :
    ∃ r mem', (reduce tables).perform mem = (r, mem') ∧
      (∀ x < mem.size, mem'.lists x = mem.lists x) ∧
      Transition.Alike
        (fun total joined => ∃ t, joined = WorkerTable.table t ∧
          mem'.Owns mem.size total t.columns) Eq
        r (Table.joinAll (ts.map WorkerTable.table)) := by
  cases h with
  | nil =>
    refine ⟨.ok [], mem, rfl, fun _ _ => rfl, .ok ⟨⟨[], by simp, .nil, by simp⟩, rfl, .nil, ?_, ?_⟩⟩
    · exact List.nodup_nil
    · simp [reach]
  | @cons refs t rest ts hfirst hrest =>
    obtain ⟨total, mem₁, hcopy, hgrown, hstores⟩ :=
      copyColumns_spec hfirst.stores t.kinds hfirst.below
    have hown : mem₁.Owns mem.size total t.columns :=
      ⟨hstores, hgrown.nodup, fun x hx => (hgrown.new x hx).1⟩
    obtain ⟨r, mem', hmerge, hsame, halike⟩ :=
      mergeAll_spec hown (hrest.imp fun _ _ h => h.of_same hgrown.same)
    refine ⟨r.map fun _ => total, mem', ?_, fun x hx => (hsame x hx).trans (hgrown.same x hx), ?_⟩
    · unfold reduce
      rw [Transition.perform_bind_ok hcopy, Transition.perform_bind, hmerge]
      cases r <;> rfl
    · rw [WorkerTable.joinAll_cons]
      generalize (ts.map WorkerTable.table).foldlM Table.join t.table = joined at halike ⊢
      cases halike with
      | ok h => exact .ok h
      | error h => exact .error h

end Memory

/-- Tables that all agree with the first one are reduced to a table that has its names, and
the lists of all of them end to end. -/
theorem WorkerTable.joinAll_of_agrees {ts : List (WorkerTable ε)}
    (h : ∀ first ∈ ts.head?, ∀ t ∈ ts, first.Agrees t) :
    ∃ total : WorkerTable ε, Table.joinAll (ts.map table) = .ok total.table ∧
      total.keys = ts.head?.elim [] keys ∧
      ∀ first ∈ ts.head?, ∀ key c, first.column? key = some c →
        ∃ d, total.column? key = some d ∧ d.isFlat = c.isFlat ∧
          d.lists = (List.range c.lists.length).map fun i =>
            ts.flatMap fun t => t.part key i := by
  cases ts with
  | nil => exact ⟨⟨[], by simp, .nil, by simp⟩, rfl, rfl, by simp⟩
  | cons first rest =>
    have hrest : ∀ t ∈ rest, first.Agrees t := fun t ht =>
      h first rfl t (List.mem_cons_of_mem _ ht)
    refine ⟨rest.foldl append first, ?_, keys_foldl_append rest first, ?_⟩
    · rw [joinAll_cons, foldlM_join_eq hrest]
    · rintro _ ⟨⟩ key c hc
      exact column?_foldl_append hrest hc

/-- A table that does not agree with the first one is refused. -/
theorem WorkerTable.joinAll_of_disagrees {first : WorkerTable ε} {ts : List (WorkerTable ε)}
    (hfirst : first ∈ ts.head?) (h : ∃ t ∈ ts, ¬first.Agrees t) :
    ∃ why, Table.joinAll (ts.map table) = .error (.inconsistent why) := by
  obtain ⟨t, ht, hnot⟩ := h
  cases ts with
  | nil => cases hfirst
  | cons first' rest =>
    cases hfirst
    rw [joinAll_cons]
    rcases List.mem_cons.mp ht with rfl | ht
    · exact absurd (.refl t) hnot
    · exact foldlM_join_refused ⟨t, ht, hnot⟩

/-- The reduction of workers' tables.  It fails exactly if some table has other names than the
first one, or another number of stages under a name.  Otherwise the result has the names of the
first table, in their order, and every list of a column is made of the lists of all tables
there, end to end in the order of the tables.  Some first tables may be reduced beforehand.
Joined in place, the tables lead to the same outcome, and no list of theirs has changed. -/
theorem WorkerTable.joinAll_concatenates (ts : List (WorkerTable ε)) :
    ((∃ why, Table.joinAll (ts.map table) = .error (.inconsistent why))
      ↔ ∃ first ∈ ts.head?, ∃ t ∈ ts, ¬first.Agrees t) ∧
    ((∀ first ∈ ts.head?, ∀ t ∈ ts, first.Agrees t) →
      ∃ total : WorkerTable ε, Table.joinAll (ts.map table) = .ok total.table ∧
        total.keys = ts.head?.elim [] keys ∧
        ∀ first ∈ ts.head?, ∀ key c, first.column? key = some c →
          ∃ d, total.column? key = some d ∧ d.isFlat = c.isFlat ∧
            d.lists = (List.range c.lists.length).map fun i =>
              ts.flatMap fun t => t.part key i) ∧
    (∀ first more rest, ts = first :: more ++ rest →
      Table.joinAll (ts.map table)
        = Table.joinAll ((first :: more).map table) >>= fun total =>
            Table.joinAll (total :: rest.map table)) ∧
    ∀ (mem : Memory ε) (tables : List (Named Nat)),
      List.Forall₂ (fun refs t => mem.Lends mem.size refs (columns t)) tables ts →
        ∃ r mem', (Memory.reduce tables).perform mem = (r, mem') ∧
          (∀ x < mem.size, mem'.lists x = mem.lists x) ∧
          Transition.Alike
            (fun total joined => ∃ t, joined = table t ∧ mem'.Owns mem.size total t.columns) Eq
            r (Table.joinAll (ts.map table)) := by
  refine ⟨⟨fun ⟨why, hwhy⟩ => ?_, fun ⟨first, hfirst, h⟩ => joinAll_of_disagrees hfirst h⟩,
    joinAll_of_agrees, ?_, fun mem tables h => Memory.reduce_spec h⟩
  · by_contra hnone
    push Not at hnone
    obtain ⟨total, htotal, -⟩ := joinAll_of_agrees hnone
    cases htotal.symm.trans hwhy
  · rintro first more rest rfl
    exact joinAll_append first more rest

/-- The total objectives of two paths through two stages, and the Markov states there. -/
def twoStages : WorkerTable Nat where
  columns := [("Objective", .flat [7, 9]), ("markov", .staged [[0, 1], [1, 1]])]
  texts := by simp
  distinct := by decide
  kinds := by decide

/-- Those of two paths through one stage. -/
def oneStage : WorkerTable Nat where
  columns := [("Objective", .flat [7, 9]), ("markov", .staged [[0, 1]])]
  texts := by simp
  distinct := by decide
  kinds := by decide

/-- The lists of both tables, which share the objectives and the first stage. -/
def sharedLists : Memory Nat where
  lists a := [[.entry 7, .entry 9], [.entry 0, .entry 1], [.entry 1, .entry 1], [.ref 1, .ref 2],
    [.ref 1]][a]?.getD []
  size := 5

theorem sharedLists_lends :
    sharedLists.Lends 5 [("Objective", 0), ("markov", 3)] twoStages.columns ∧
      sharedLists.Lends 5 [("Objective", 0), ("markov", 4)] oneStage.columns := by
  refine ⟨⟨.cons ⟨rfl, rfl⟩ (.cons ⟨rfl, [1, 2], rfl, ?_⟩ .nil), by decide⟩,
    ⟨.cons ⟨rfl, rfl⟩ (.cons ⟨rfl, [1], rfl, ?_⟩ .nil), by decide⟩⟩
  · exact .cons rfl (.cons rfl .nil)
  · exact .cons rfl .nil

/-- A table joined to itself, and one joined in place to a table with another number of stages.
By the time that the stages are compared the objectives have been joined, in a list of their
own. -/
theorem joinAll_concatenates_shared :
    (∃ total : WorkerTable Nat,
      Table.joinAll ([twoStages, twoStages].map WorkerTable.table) = .ok total.table ∧
        total.column? "markov" = some (.staged [[0, 1, 0, 1], [1, 1, 1, 1]])) ∧
    ∃ mem', (Memory.reduce [[("Objective", 0), ("markov", 3)],
        [("Objective", 0), ("markov", 4)]]).perform sharedLists
          = (.error (.inconsistent (.stageCount "markov" 1 2)), mem') ∧
      ∀ x < 5, mem'.lists x = sharedLists.lists x := by
  constructor
  · obtain ⟨-, hjoined, -⟩ := WorkerTable.joinAll_concatenates [twoStages, twoStages]
    obtain ⟨total, htotal, -, hcolumns⟩ := hjoined (by
      rintro _ ⟨⟩ t ht
      obtain rfl : t = twoStages := by simpa using ht
      exact .refl _)
    obtain ⟨d, hd, hflat, hlists⟩ := hcolumns twoStages rfl "markov" _ rfl
    cases d with
    | flat => cases hflat
    | staged lists =>
      obtain rfl : lists = _ := hlists
      exact ⟨total, htotal, hd⟩
  · obtain ⟨-, -, -, hplace⟩ := WorkerTable.joinAll_concatenates [twoStages, oneStage]
    obtain ⟨r, mem', hperform, hsame, halike⟩ := hplace sharedLists _
      (.cons sharedLists_lends.1 (.cons sharedLists_lends.2 .nil))
    have hrefused : Table.joinAll ([twoStages, oneStage].map WorkerTable.table)
        = .error (.inconsistent (.stageCount "markov" 1 2)) := rfl
    rw [hrefused] at halike
    cases halike with
    | error h =>
      cases h
      exact ⟨mem', hperform, hsame⟩

end Multistage
