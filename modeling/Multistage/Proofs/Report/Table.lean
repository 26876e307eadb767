/-
Multistage.Proofs.Report.Table — joining the tables of workers.

A worker's table has a flat column of total objectives, and under every other name a column
with one list per stage (`WorkerTable`).  A further table can be joined to a first one exactly
if it has the same names and as many stages under each of them (`WorkerTable.Agrees`); then
its entries go to the end of the lists that they belong to (`join_eq`, `join_refused`).  Joined
tables agree with the same tables as before, so whether all tables of a round can be joined,
and what they are joined to, is found by induction on them (`joinAll_eq`, `joinAll_refused`).
-/
import Multistage.Proofs.Except
import Multistage.Proofs.Named
import Multistage.Report.Table

namespace Multistage

variable {ε : Type}

/-! ## Columns -/

/-- A column of a table: a flat list of entries, or a list of entries for every stage. -/
inductive Column (ε : Type) where
  | flat (entries : List ε)
  | staged (stages : List (List ε))

/-- A list of entries. -/
def Nested.ofEntries (entries : List ε) : Nested ε := .list (entries.map .entry)

namespace Column

/-- A column as it stands in a table. -/
def nested : Column ε → Nested ε
  | flat entries => .ofEntries entries
  | staged stages => .list (stages.map .ofEntries)

def isFlat : Column ε → Bool
  | flat _ => true
  | staged _ => false

/-- The lists of a column: the flat one, or those of the stages. -/
def lists : Column ε → List (List ε)
  | flat entries => [entries]
  | staged stages => stages

/-- The column with the entries of a further one at the ends of its lists. -/
def append : Column ε → Column ε → Column ε
  | flat as, flat bs => flat (as ++ bs)
  | staged as, staged bs => staged (List.zipWith (· ++ ·) as bs)
  | c, _ => c

/-- Whether the lists of two columns belong together one by one. -/
def Fits (c c' : Column ε) : Prop := c.isFlat = c'.isFlat ∧ c.lists.length = c'.lists.length

instance (c c' : Column ε) : Decidable (c.Fits c') := inferInstanceAs (Decidable (_ ∧ _))

/-- The column of a name joined with a further one, if there is one. -/
def join (key : Value) (c : Column ε) : Option (Column ε) → Except Failure (Column ε)
  | none => .error (.inconsistent (.missingKey key))
  | some c' =>
    if c.Fits c' then .ok (c.append c')
    else .error (.inconsistent (.stageCount key c'.lists.length c.lists.length))

theorem join_eq_ok {key : Value} {c d : Column ε} {c' : Option (Column ε)} :
    c.join key c' = .ok d ↔ ∃ b, c' = some b ∧ c.Fits b ∧ d = c.append b := by
  cases c' with
  | none => exact iff_of_false nofun nofun
  | some b =>
    unfold join
    by_cases h : c.Fits b <;> simp [h, eq_comm]

theorem join_eq_error {key : Value} {c : Column ε} {c' : Option (Column ε)} {e : Failure}
    (h : c.join key c' = .error e) : ∃ why, e = .inconsistent why := by
  cases c' with
  | none =>
    cases h
    exact ⟨_, rfl⟩
  | some b =>
    by_cases hfit : c.Fits b
    · rw [join, if_pos hfit] at h
      cases h
    · rw [join, if_neg hfit] at h
      cases h
      exact ⟨_, rfl⟩

@[simp] theorem isFlat_append (c c' : Column ε) : (c.append c').isFlat = c.isFlat := by
  cases c <;> cases c' <;> rfl

theorem lists_append {c c' : Column ε} (h : c.Fits c') :
    (c.append c').lists = List.zipWith (· ++ ·) c.lists c'.lists := by
  cases c <;> cases c'
  case flat.flat => rfl
  case staged.staged => rfl
  case flat.staged => cases h.1
  case staged.flat => cases h.1

theorem length_lists_append {c c' : Column ε} (h : c.Fits c') :
    (c.append c').lists.length = c.lists.length := by
  rw [lists_append h, List.length_zipWith, h.2, Nat.min_self]

end Column

/-! ## Tables of workers -/

/-- The table of a worker: names are texts and come up once, and the column of total
objectives is the one that is flat. -/
structure WorkerTable (ε : Type) where
  columns : Named (Column ε)
  texts : ∀ e ∈ columns, ∃ s, e.1 = .string s
  distinct : (columns.map Prod.fst).Nodup
  kinds : ∀ e ∈ columns, e.2.isFlat = true ↔ e.1 = objectiveKey

/-- Names are looked up in a list of texts as in any list of pairs. -/
theorem Named.get?_eq_some_iff {β : Type} {xs : Named β} (htexts : ∀ e ∈ xs, ∃ s, e.1 = .string s)
    (hdistinct : (xs.map Prod.fst).Nodup) {key : Value} {b : β} :
    xs.get? key = some b ↔ (key, b) ∈ xs := by
  induction xs with
  | nil => simp [get?]
  | cons e xs ih =>
    obtain ⟨⟨s, hs⟩, htexts⟩ := List.forall_mem_cons.mp htexts
    obtain ⟨hnew, hdistinct⟩ := List.nodup_cons.mp hdistinct
    have ih := ih htexts hdistinct
    obtain ⟨k, c⟩ := e
    unfold get? at ih ⊢
    by_cases hkey : k = key
    · subst hkey
      have hother : (k, b) ∉ xs := fun hmem => hnew (List.mem_map.mpr ⟨_, hmem, rfl⟩)
      simp [hother, eq_comm]
    · have hsame : k.isSame key = false := by
        obtain rfl : k = .string s := hs
        exact Bool.eq_false_iff.mpr fun h => hkey (Value.isSame_string.mp h).symm
      simp [hsame, ih, Ne.symm hkey]

namespace WorkerTable

variable {t u v : WorkerTable ε}

/-- The table. -/
def table (t : WorkerTable ε) : Table ε := t.columns.map fun e => (e.1, e.2.nested)

def keys (t : WorkerTable ε) : List Value := t.columns.map Prod.fst

def column? (t : WorkerTable ε) (key : Value) : Option (Column ε) := t.columns.get? key

/-- The entries of a list of a column; none if there is no such list. -/
def part (t : WorkerTable ε) (key : Value) (i : Nat) : List ε :=
  ((t.column? key).bind fun c => c.lists[i]?).getD []

@[simp] theorem keys_table (t : WorkerTable ε) : t.table.keys = t.keys := by
  simp [table, Table.keys, keys]

theorem column?_eq_some {key : Value} {c : Column ε} :
    t.column? key = some c ↔ (key, c) ∈ t.columns :=
  Named.get?_eq_some_iff t.texts t.distinct

theorem get?_table (t : WorkerTable ε) (key : Value) :
    t.table.get? key = (t.column? key).map Column.nested := by
  unfold table column? Named.get?
  rw [List.find?_map, Option.map_map, Option.map_map]
  rfl

theorem mem_keys {key : Value} : key ∈ t.keys ↔ ∃ c, t.column? key = some c := by
  simp only [column?_eq_some]
  exact List.mem_map.trans ⟨fun ⟨e, he, h⟩ => ⟨e.2, h ▸ he⟩, fun ⟨c, h⟩ => ⟨_, h, rfl⟩⟩

/-- Columns of one name are of one kind. -/
theorem isFlat_eq {key : Value} {c c' : Column ε} (hc : t.column? key = some c)
    (hc' : u.column? key = some c') : c.isFlat = c'.isFlat := by
  rw [Bool.eq_iff_iff, t.kinds _ (column?_eq_some.mp hc), u.kinds _ (column?_eq_some.mp hc')]

/-- Whether two tables have the same names, and as many stages under each of them. -/
structure Agrees (t u : WorkerTable ε) : Prop where
  keys : ∀ key, key ∈ t.keys ↔ key ∈ u.keys
  stages : ∀ key stages stages', t.column? key = some (.staged stages) →
    u.column? key = some (.staged stages') → stages.length = stages'.length

theorem Agrees.refl (t : WorkerTable ε) : t.Agrees t where
  keys _ := Iff.rfl
  stages key stages stages' h h' := by
    cases h.symm.trans h'
    rfl

theorem Agrees.fits (h : t.Agrees u) {key : Value} {c : Column ε} (hc : t.column? key = some c) :
    ∃ c', u.column? key = some c' ∧ c.Fits c' := by
  obtain ⟨c', hc'⟩ := mem_keys.mp ((h.keys key).mp (mem_keys.mpr ⟨c, hc⟩))
  refine ⟨c', hc', isFlat_eq hc hc', ?_⟩
  cases c <;> cases c'
  case flat.flat => rfl
  case staged.staged => exact h.stages key _ _ hc hc'
  case flat.staged => cases isFlat_eq hc hc'
  case staged.flat => cases isFlat_eq hc hc'

/-- Two tables agree if all columns of the first have columns in the other that they fit, and
there are no more. -/
theorem agrees_of_fits (hkeys : ∀ key ∈ u.keys, key ∈ t.keys)
    (hfits : ∀ key c, t.column? key = some c → ∃ c', u.column? key = some c' ∧ c.Fits c') :
    t.Agrees u where
  keys key := by
    refine ⟨fun hkey => ?_, hkeys key⟩
    obtain ⟨c, hc⟩ := mem_keys.mp hkey
    obtain ⟨c', hc', -⟩ := hfits key c hc
    exact mem_keys.mpr ⟨c', hc'⟩
  stages key stages stages' hc hc' := by
    obtain ⟨c', h, hfit⟩ := hfits key _ hc
    cases h.symm.trans hc'
    exact hfit.2

/-! ## Joining two tables -/

/-- The table with the entries of a further one at the ends of its lists. -/
def append (t u : WorkerTable ε) : WorkerTable ε where
  columns := t.columns.map fun e => (e.1, ((u.column? e.1).map e.2.append).getD e.2)
  texts e he := by
    obtain ⟨e', he', rfl⟩ := List.mem_map.mp he
    exact t.texts e' he'
  distinct := by
    rw [List.map_map]
    exact t.distinct
  kinds e he := by
    obtain ⟨e', he', rfl⟩ := List.mem_map.mp he
    rw [← t.kinds e' he']
    cases u.column? e'.1 <;> simp

@[simp] theorem keys_append (t u : WorkerTable ε) : (t.append u).keys = t.keys := by
  simp [append, keys]

theorem column?_append {key : Value} {c c' : Column ε} (hc : t.column? key = some c)
    (hc' : u.column? key = some c') : (t.append u).column? key = some (c.append c') := by
  rw [column?_eq_some] at hc ⊢
  exact List.mem_map.mpr ⟨_, hc, by simp [hc']⟩

theorem append_fits (h : t.Agrees u) {key : Value} {c : Column ε}
    (hc : (t.append u).column? key = some c) : ∃ c', t.column? key = some c' ∧ c'.Fits c := by
  obtain ⟨c', hc'⟩ := mem_keys.mp (keys_append t u ▸ mem_keys.mpr ⟨c, hc⟩)
  obtain ⟨d, hd, hfit⟩ := h.fits hc'
  cases (column?_append hc' hd).symm.trans hc
  exact ⟨c', hc', by simp, (Column.length_lists_append hfit).symm⟩

end WorkerTable

namespace Table

/-- A column of a worker's table can be joined as it is. -/
theorem openColumn_nested {key : Value} {c : Column ε} (h : c.isFlat = true ↔ key = objectiveKey) :
    openColumn key c.nested = .ok c.nested := by
  unfold openColumn
  cases c with
  | flat entries =>
    simp only [h.mp rfl, if_true]
    rfl
  | staged stages =>
    have hkey : ¬key = objectiveKey := fun hkey => nomatch h.mpr hkey
    have hstages : (stages.map Nested.ofEntries).mapM Nested.items
        = .ok (stages.map fun entries => entries.map Nested.entry) := by
      rw [mapM_eq_ok, List.forall₂_map_left_iff, List.forall₂_map_right_iff]
      exact List.forall₂_same.mpr fun _ _ => rfl
    simp only [hkey, if_false]
    show ((stages.map Nested.ofEntries).mapM Nested.items >>= fun stages => _) = _
    rw [hstages, ok_bind, List.map_map]
    rfl

theorem joinStages_eq : ∀ {as bs : List (List ε)}, as.length = bs.length →
    joinStages (as.map .ofEntries) (bs.map .ofEntries)
      = .ok ((List.zipWith (· ++ ·) as bs).map .ofEntries)
  | [], [], _ => rfl
  | a :: as, b :: bs, h => by
    have hrest := joinStages_eq (Nat.succ.inj h)
    show (joinStages (as.map .ofEntries) (bs.map .ofEntries) >>= _) = _
    rw [hrest, List.zipWith_cons_cons, List.map_cons, Nested.ofEntries, List.map_append]
    rfl

/-- Columns are joined list by list. -/
theorem joinColumn_eq {key : Value} {c : Column ε} {further : Table ε} {c' : Option (Column ε)}
    (hkey : c.isFlat = true ↔ key = objectiveKey)
    (hfurther : further.get? key = c'.map Column.nested)
    (hkinds : ∀ d ∈ c', d.isFlat = c.isFlat) :
    joinColumn key c.nested further = (c.join key c').map Column.nested := by
  unfold joinColumn
  rw [hfurther]
  cases c' with
  | none => rfl
  | some c' =>
    have hflat := hkinds c' rfl
    dsimp only [Option.map_some, Column.join]
    cases c <;> cases c'
    case flat.flat as bs =>
      simp only [hkey.mp rfl, if_true]
      rw [if_pos ⟨rfl, rfl⟩]
      show Except.ok (Nested.list (as.map .entry ++ bs.map .entry)) = _
      rw [← List.map_append]
      rfl
    case staged.staged as bs =>
      have hstaged : ¬key = objectiveKey := fun h => nomatch hkey.mpr h
      simp only [Column.nested, Nested.items, ok_bind, hstaged, if_false, List.length_map]
      by_cases hlength : as.length = bs.length
      · rw [if_neg (not_not.mpr hlength.symm), if_pos ⟨rfl, hlength⟩, joinStages_eq hlength]
        rfl
      · rw [if_pos (Ne.symm hlength), if_neg fun h => hlength h.2]
        rfl
    case flat.staged => cases hflat
    case staged.flat => cases hflat

/-- Texts can be put in order. -/
theorem exists_sortNames {names : List Value} (h : ∀ name ∈ names, ∃ s, name = .string s) :
    ∃ sorted, Named.sortNames names = .ok sorted ∧ sorted.isEmpty = names.isEmpty := by
  cases names with
  | nil => exact ⟨[], rfl, rfl⟩
  | cons first rest =>
    obtain ⟨⟨s, rfl⟩, hrest⟩ := List.forall_mem_cons.mp h
    refine ⟨_, if_pos (List.all_eq_true.mpr fun name hname => ?_), ?_⟩
    · obtain ⟨s', rfl⟩ := hrest name hname
      rfl
    · rw [Bool.eq_iff_iff, List.isEmpty_iff, List.isEmpty_iff]
      exact iff_of_false (fun h => by simpa using congrArg List.length h) nofun

end Table

namespace WorkerTable

variable {t u v : WorkerTable ε}

/-- The names of a further table that the first one lacks. -/
def surplus (t u : WorkerTable ε) : List Value := u.keys.filter fun key => (t.column? key).isNone

theorem surplus_eq_nil : t.surplus u = [] ↔ ∀ key ∈ u.keys, key ∈ t.keys := by
  unfold surplus
  rw [List.filter_eq_nil_iff]
  refine forall₂_congr fun key _ => ?_
  rw [mem_keys, Option.isNone_iff_eq_none, ← Option.isSome_iff_exists, ← ne_eq,
    Option.ne_none_iff_isSome]

theorem surplusKeys_table (t u : WorkerTable ε) :
    Table.surplusKeys t.table u.table = Named.sortNames (t.surplus u) := by
  unfold Table.surplusKeys surplus
  rw [keys_table]
  refine congrArg Named.sortNames (List.filter_congr fun key _ => ?_)
  rw [get?_table, Option.isNone_map]

theorem exists_sorted_surplus (t u : WorkerTable ε) : ∃ sorted,
    Named.sortNames (t.surplus u) = .ok sorted ∧ sorted.isEmpty = (t.surplus u).isEmpty := by
  refine Table.exists_sortNames fun name hname => ?_
  obtain ⟨e, he, rfl⟩ := List.mem_map.mp (List.mem_of_mem_filter hname)
  exact u.texts e he

/-- The columns joined with those of the same names of a further table. -/
def joinColumns (t u : WorkerTable ε) : Except Failure (Named (Column ε)) :=
  t.columns.mapM fun e => do return (e.1, ← e.2.join e.1 (u.column? e.1))

/-- Two tables are joined column by column. -/
theorem mapM_joinColumn (t u : WorkerTable ε) :
    (t.table.mapM fun (key, column) => do return (key, ← Table.joinColumn key column u.table))
      = (t.joinColumns u).map fun columns => columns.map fun e => (e.1, e.2.nested) := by
  unfold table joinColumns
  rw [← mapM_map, List.mapM_map]
  refine mapM_congr fun e he => ?_
  have hcolumn : t.column? e.1 = some e.2 := column?_eq_some.mpr he
  have hjoin := Table.joinColumn_eq (t.kinds e he) (get?_table u e.1) fun d hd =>
    (isFlat_eq hcolumn hd).symm
  show (Table.joinColumn e.1 e.2.nested u.table >>= _) = _
  rw [hjoin]
  cases e.2.join e.1 (u.column? e.1) <;> rfl

/-- All columns fit. -/
theorem joinColumns_eq (h : t.Agrees u) : t.joinColumns u = .ok (t.append u).columns := by
  unfold joinColumns append
  rw [mapM_eq_ok, List.forall₂_map_right_iff]
  refine List.forall₂_same.mpr fun e he => ?_
  obtain ⟨c, hc, hfit⟩ := h.fits (column?_eq_some.mpr he)
  simp [hc, Column.join, hfit]

theorem joinColumns_refused (hkeys : t.surplus u = []) (h : ¬t.Agrees u) :
    ∃ why, t.joinColumns u = .error (.inconsistent why) := by
  cases hcolumns : t.joinColumns u with
  | ok columns =>
    -- all columns are joined, so all of them fit
    refine absurd (agrees_of_fits (surplus_eq_nil.mp hkeys) fun key c hc => ?_) h
    obtain ⟨column, hcolumn⟩ := exists_of_mapM_eq_ok hcolumns _ (column?_eq_some.mp hc)
    obtain ⟨d, hd, -⟩ := bind_eq_ok.mp hcolumn
    obtain ⟨c', hc', hfit, -⟩ := Column.join_eq_ok.mp hd
    exact ⟨c', hc', hfit⟩
  | error e =>
    obtain ⟨_, e', _, -, he', -⟩ := mapM_eq_error.mp hcolumns
    cases hjoin : e'.2.join e'.1 (u.column? e'.1) with
    | ok c =>
      rw [hjoin] at he'
      cases he'
    | error why =>
      rw [hjoin] at he'
      obtain ⟨fault, rfl⟩ := Column.join_eq_error hjoin
      cases he'
      exact ⟨fault, rfl⟩

/-- Joined columns are those of the table that the further one is put to the end of. -/
theorem joinColumns_eq_ok {columns : Named (Column ε)} (hkeys : t.surplus u = [])
    (h : t.joinColumns u = .ok columns) : columns = (t.append u).columns := by
  by_cases hagrees : t.Agrees u
  · rw [joinColumns_eq hagrees] at h
    exact (Except.ok.inj h).symm
  · obtain ⟨why, hwhy⟩ := joinColumns_refused hkeys hagrees
    rw [hwhy] at h
    cases h

/-- Two tables are joined if the further one has no names of its own. -/
theorem join_table (t u : WorkerTable ε) : t.table.join u.table = (do
    let surplus ← Named.sortNames (t.surplus u)
    if !surplus.isEmpty then throw (.inconsistent (.surplusKeys surplus))
    (t.joinColumns u).map fun columns => columns.map fun e => (e.1, e.2.nested)) := by
  rw [← mapM_joinColumn, ← surplusKeys_table]
  rfl

/-- Tables that agree are joined. -/
theorem join_eq (h : t.Agrees u) : t.table.join u.table = .ok (t.append u).table := by
  obtain ⟨sorted, hsorted, hempty⟩ := exists_sorted_surplus t u
  rw [surplus_eq_nil.mpr fun key hkey => (h.keys key).mpr hkey] at hempty
  rw [join_table, hsorted, ok_bind, hempty, joinColumns_eq h]
  rfl

/-- Tables that do not agree are refused. -/
theorem join_refused (h : ¬t.Agrees u) :
    ∃ why, t.table.join u.table = .error (.inconsistent why) := by
  obtain ⟨sorted, hsorted, hempty⟩ := exists_sorted_surplus t u
  rw [join_table, hsorted, ok_bind, hempty]
  by_cases hsurplus : t.surplus u = []
  · obtain ⟨why, hwhy⟩ := joinColumns_refused hsurplus h
    rw [hsurplus, hwhy]
    exact ⟨why, rfl⟩
  · have hnonempty : (t.surplus u).isEmpty = false := by simpa using hsurplus
    rw [hnonempty]
    exact ⟨_, rfl⟩

/-! ## Joining all tables -/

/-- A table agrees with the same tables after others have been joined to it. -/
theorem append_agrees (h : t.Agrees u) : (t.append u).Agrees v ↔ t.Agrees v := by
  constructor
  · intro hv
    refine agrees_of_fits (fun key hkey => ?_) fun key c hc => ?_
    · exact keys_append t u ▸ (hv.keys key).mpr hkey
    · obtain ⟨c', hc', hfit⟩ := h.fits hc
      obtain ⟨d, hd, hd'⟩ := hv.fits (column?_append hc hc')
      have hlength := Column.length_lists_append hfit
      exact ⟨d, hd, c.isFlat_append c' ▸ hd'.1, hlength ▸ hd'.2⟩
  · intro hv
    refine agrees_of_fits (fun key hkey => ?_) fun key c hc => ?_
    · rw [keys_append]
      exact (hv.keys key).mpr hkey
    · obtain ⟨c', hc', hfit⟩ := append_fits h hc
      obtain ⟨d, hd, hd'⟩ := hv.fits hc'
      exact ⟨d, hd, hfit.1.symm.trans hd'.1, hfit.2.symm.trans hd'.2⟩

/-- Further tables that agree with a table are joined to it one after another. -/
theorem foldlM_join_eq : ∀ {rest : List (WorkerTable ε)} {t : WorkerTable ε},
    (∀ u ∈ rest, t.Agrees u) →
      (rest.map table).foldlM Table.join t.table = .ok (rest.foldl append t).table
  | [], _, _ => rfl
  | u :: rest, t, h => by
    obtain ⟨hu, hrest⟩ := List.forall_mem_cons.mp h
    rw [List.map_cons, List.foldlM_cons, join_eq hu, ok_bind]
    exact foldlM_join_eq fun v hv => (append_agrees hu).mpr (hrest v hv)

/-- They are refused if one of them does not agree. -/
theorem foldlM_join_refused : ∀ {rest : List (WorkerTable ε)} {t : WorkerTable ε},
    (∃ u ∈ rest, ¬t.Agrees u) →
      ∃ why, (rest.map table).foldlM Table.join t.table = .error (.inconsistent why)
  | [], _, h => by simp at h
  | u :: rest, t, h => by
    rw [List.map_cons, List.foldlM_cons]
    by_cases hu : t.Agrees u
    · rw [join_eq hu, ok_bind]
      refine foldlM_join_refused ?_
      obtain ⟨v, hv, hnot⟩ := h
      rcases List.mem_cons.mp hv with rfl | hv
      · exact absurd hu hnot
      · exact ⟨v, hv, (append_agrees hu).not.mpr hnot⟩
    · obtain ⟨why, hwhy⟩ := join_refused hu
      exact ⟨why, by rw [hwhy]; rfl⟩

theorem openTable_eq (t : WorkerTable ε) :
    (t.table.mapM fun (key, column) => do return (key, ← Table.openColumn key column))
      = .ok t.table := by
  unfold table
  rw [mapM_eq_ok, List.forall₂_map_left_iff, List.forall₂_map_right_iff]
  refine List.forall₂_same.mpr fun e he => ?_
  show (Table.openColumn e.1 e.2.nested >>= _) = _
  rw [Table.openColumn_nested (t.kinds e he)]
  rfl

theorem joinAll_cons (t : WorkerTable ε) (rest : List (WorkerTable ε)) :
    Table.joinAll ((t :: rest).map table) = (rest.map table).foldlM Table.join t.table := by
  rw [List.map_cons, Table.joinAll, openTable_eq, ok_bind]

/-- To join all tables is to join some first ones, and then the others to what they are
joined to. -/
theorem joinAll_append (t : WorkerTable ε) (first rest : List (WorkerTable ε)) :
    Table.joinAll ((t :: first ++ rest).map table)
      = Table.joinAll ((t :: first).map table) >>= fun total =>
          Table.joinAll (total :: rest.map table) := by
  rw [List.cons_append, joinAll_cons, joinAll_cons, List.map_append, List.foldlM_append]
  by_cases h : ∀ u ∈ first, t.Agrees u
  · rw [foldlM_join_eq h, ok_bind, ok_bind]
    exact (joinAll_cons _ rest).symm
  · push Not at h
    obtain ⟨why, hwhy⟩ := foldlM_join_refused h
    rw [hwhy]
    rfl

/-! ## What tables are joined to -/

theorem keys_foldl_append (rest : List (WorkerTable ε)) :
    ∀ t : WorkerTable ε, (rest.foldl append t).keys = t.keys := by
  induction rest with
  | nil => exact fun _ => rfl
  | cons u rest ih => exact fun t => (ih _).trans (keys_append t u)

theorem part_append (h : t.Agrees u) {key : Value} {c : Column ε} (hc : t.column? key = some c)
    {i : Nat} (hi : i < c.lists.length) :
    (t.append u).part key i = t.part key i ++ u.part key i := by
  obtain ⟨c', hc', hfit⟩ := h.fits hc
  have hi' : i < c'.lists.length := hfit.2 ▸ hi
  simp only [part, column?_append hc hc', hc, hc', Option.bind_some, Column.lists_append hfit,
    List.getElem?_zipWith, List.getElem?_eq_getElem hi, List.getElem?_eq_getElem hi']
  rfl

/-- The columns of joined tables are those of the first one, with as many lists.  Each list is
made of the lists of all tables, in order. -/
theorem column?_foldl_append {key : Value} : ∀ {rest : List (WorkerTable ε)} {t : WorkerTable ε},
    (∀ u ∈ rest, t.Agrees u) → ∀ {c : Column ε}, t.column? key = some c →
      ∃ total, (rest.foldl append t).column? key = some total ∧ total.isFlat = c.isFlat ∧
        total.lists = (List.range c.lists.length).map fun i =>
          (t :: rest).flatMap fun u => u.part key i
  | [], t, _, c, hc => by
    refine ⟨c, hc, rfl, List.ext_getElem (by simp) fun i hi _ => ?_⟩
    simp [part, hc, hi]
  | u :: rest, t, h, c, hc => by
    obtain ⟨hu, hrest⟩ := List.forall_mem_cons.mp h
    obtain ⟨c', hc', hfit⟩ := hu.fits hc
    obtain ⟨total, htotal, hflat, hlists⟩ := column?_foldl_append
      (fun v hv => (append_agrees hu).mpr (hrest v hv)) (column?_append hc hc')
    refine ⟨total, htotal, hflat.trans (by simp), ?_⟩
    rw [hlists, Column.length_lists_append hfit]
    refine List.map_congr_left fun i hi => ?_
    rw [List.flatMap_cons, List.flatMap_cons, List.flatMap_cons,
      part_append hu hc (List.mem_range.mp hi), List.append_assoc]

end WorkerTable

end Multistage
