/-
Multistage.Proofs.Training.Accepted — which options are accepted, and which are usable.

Options are read pair by pair: a field takes the last value that is given under its name or
another name of it, and keeps its default if there is none (`foldlM_put`).  The checks look
at a converted copy of a count, and compare a limit with zero, but what is kept is what was
given.  So a count is accepted if it converts to one, whether or not it is one itself, and a
limit also if it is no number (`validated_eq_ok`).  Options that are accepted are usable, in
the sense that counts are counts and limits are above zero, exactly if the counts among them
are whole and the limits are numbers; and they are accepted again as they are
(`accepted_usable`).
-/
import Multistage.Proofs.Binary64.Reading
import Multistage.Proofs.Named
import Multistage.Proofs.Training.Stopping

namespace Multistage

/-! ## Counts and limits -/

namespace Value

variable {v : Value} {least : Int}

/-- Whether a value is a whole number, and at least so large. -/
def IsCount (least : Int) (v : Value) : Prop := ∃ i, v.whole? = some i ∧ least ≤ i

/-- Whether a value converts to a whole number that is at least so large. -/
def ConvertsToCount (least : Int) (v : Value) : Prop := ∃ i, v.toInt = .ok i ∧ least ≤ i

/-- Whether a value is a number above zero. -/
def IsPositive (v : Value) : Prop := ∃ n, v.number = .ok n ∧ (Number.whole 0).isBelow n = true

/-- Whether a value is the double that is no number. -/
def IsNaN (v : Value) : Prop := ∃ x, v = .float x ∧ Scalar.isNaN x = true

theorem toInt_eq_of_whole? {i : Int} (h : v.whole? = some i) : v.toInt = .ok i := by
  cases v with
  | bool b => exact congrArg Except.ok (Option.some.inj h)
  | int j => exact congrArg Except.ok (Option.some.inj h)
  | null | float _ | string _ | list _ | record _ => cases h

/-- Counts are what converts to a count and is whole. -/
theorem isCount_iff : v.IsCount least ↔ v.ConvertsToCount least ∧ v.whole?.isSome = true := by
  constructor
  · rintro ⟨i, hi, hle⟩
    exact ⟨⟨i, toInt_eq_of_whole? hi, hle⟩, Option.isSome_iff_exists.mpr ⟨i, hi⟩⟩
  · rintro ⟨⟨i, hi, hle⟩, hwhole⟩
    obtain ⟨j, hj⟩ := Option.isSome_iff_exists.mp hwhole
    cases hi.symm.trans (toInt_eq_of_whole? hj)
    exact ⟨i, hj, hle⟩

theorem floatAbove_of_isNaN {x : Float} (h : Scalar.isNaN x = true) : floatAbove x 0 = false := by
  rw [Binary64.isNaN_eq] at h
  rw [floatAbove, Binary64.read_eq]
  cases hparts : Binary64.parts x with
  | notANumber => rfl
  | infinity _ | zero _ | finite _ _ _ _ => rw [hparts] at h; cases h

/-- A limit that is not refused is above zero, or is no number. -/
theorem isAtMost_zero_eq_ok : v.isAtMost 0 = .ok false ↔ v.IsPositive ∨ v.IsNaN := by
  cases v with
  | bool b => cases b <;> simp [isAtMost, isBelow, IsPositive, IsNaN, number, Number.isBelow]
  | int i =>
    simp [isAtMost, isBelow, IsPositive, IsNaN, number, Number.isBelow]
    omega
  | float x =>
    simp only [isAtMost, Except.ok.injEq, Binary64.isAtMost_zero_iff, IsPositive, IsNaN, number,
      Number.isBelow, float.injEq, exists_eq_left']
  | null | string _ | list _ | record _ => simp [isAtMost, isBelow, IsPositive, IsNaN, number]

theorem isPositive_iff : v.IsPositive ↔ (v.IsPositive ∨ v.IsNaN) ∧ ¬v.IsNaN := by
  refine ⟨fun h => ⟨.inl h, ?_⟩, fun ⟨h, hnumber⟩ => h.resolve_right hnumber⟩
  rintro ⟨x, rfl, hnan⟩
  obtain ⟨n, hn, hpos⟩ := h
  cases hn
  cases (floatAbove_of_isNaN hnan).symm.trans hpos

end Value

namespace Options

/-! ## Fields -/

/-- The names of the fields. -/
def names : List String := ({} : Options).fields.map Prod.fst

theorem fields_injective {o o' : Options} (h : o.fields = o'.fields) : o = o' := by
  cases o
  cases o'
  simp only [fields, List.cons.injEq, Prod.mk.injEq, true_and, and_true] at h
  simp only [mk.injEq]
  exact h

theorem fields_names (o : Options) : o.fields.map Prod.fst = names := rfl

theorem names_nodup : names.Nodup := by decide

/-- A value is put into the field of a name, and all other fields stay as they are. -/
theorem put?_fields {o o' : Options} {name v : Value} (h : o.put? name v = some o') :
    ∃ field ∈ names, name = .string field ∧
      o'.fields = o.fields.map fun e => (e.1, if e.1 = field then v else e.2) := by
  unfold put? at h
  split at h <;> cases h
  all_goals exact ⟨_, by decide, rfl, by simp [fields]⟩

/-- Every field has a place in the options. -/
theorem exists_put? (o : Options) (v : Value) {field : String} (h : field ∈ names) :
    ∃ o', o.put? (.string field) v = some o' := by
  simp only [names, fields, List.map_cons, List.map_nil, List.mem_cons, List.not_mem_nil,
    or_false] at h
  rcases h with rfl | rfl | rfl | rfl | rfl | rfl | rfl | rfl | rfl | rfl | rfl | rfl
  all_goals exact ⟨_, rfl⟩

/-! ## Values by name -/

/-- Whether a key names a field: it is the field's name, or another name of it. -/
def StandsFor (key : Value) (name : String) : Prop :=
  key = .string name ∨ (key, .string name) ∈ aliases

instance (key : Value) (name : String) : Decidable (StandsFor key name) :=
  inferInstanceAs (Decidable (_ ∨ _))

theorem canonical_eq_iff {key : Value} {name : String} (hname : name ∈ names) :
    canonical key = .string name ↔ StandsFor key name := by
  have hown : ∀ name ∈ names, canonical (.string name) = .string name := by decide
  have hother : ∀ e ∈ aliases, canonical e.1 = e.2 := by decide
  constructor
  · intro h
    unfold canonical at h
    generalize hfind : aliases.find? _ = found at h
    cases found with
    | none => exact .inl h
    | some e =>
      have hkey : e.1 = key := by simpa using List.find?_some hfind
      have hvalue : e.2 = .string name := h
      exact .inr (hkey ▸ hvalue ▸ List.mem_of_find?_eq_some hfind)
  · rintro (rfl | halias)
    · exact hown name hname
    · exact hother _ halias

/-- The last value that is given under a key of a kind, or a default. -/
def lastUnder (isKey : Value → Prop) [DecidablePred isKey] (given : Named Value) (default : Value) :
    Value :=
  ((given.filter fun e => isKey e.1).map Prod.snd).getLastD default

section LastUnder

variable {isKey : Value → Prop} [DecidablePred isKey] {given : Named Value}

theorem lastUnder_cons (key v default : Value) :
    lastUnder isKey ((key, v) :: given) default
      = lastUnder isKey given (if isKey key then v else default) := by
  unfold lastUnder
  by_cases h : isKey key
  · rw [List.filter_cons_of_pos (by simpa using h), List.map_cons, List.getLastD_cons, if_pos h]
  · rw [List.filter_cons_of_neg (by simpa using h), if_neg h]

/-- The value of the only key of the kind is the last one. -/
theorem lastUnder_eq {key v default : Value} (hmem : (key, v) ∈ given) (hkey : isKey key)
    (honly : ∀ e ∈ given, isKey e.1 → e.2 = v) : lastUnder isKey given default = v := by
  have hsome : (given.filter fun e => isKey e.1).map Prod.snd ≠ [] := by
    intro hnil
    have hin : (key, v) ∈ given.filter fun e => isKey e.1 :=
      List.mem_filter.mpr ⟨hmem, decide_eq_true hkey⟩
    rw [List.map_eq_nil_iff.mp hnil] at hin
    cases hin
  unfold lastUnder
  rw [List.getLastD_eq_getLast?, List.getLast?_eq_some_getLast hsome, Option.getD_some]
  obtain ⟨e, he, hlast⟩ := List.mem_map.mp (List.getLast_mem hsome)
  rw [List.mem_filter, decide_eq_true_eq] at he
  rw [← hlast, honly e he.1 he.2]

end LastUnder

section Reading

/-- Options with pairs read into them: a key goes by what it is called, and one that calls no
field is refused. -/
def readInto (called : Value → Value) (unknown : Value → Failure) (given : Named Value)
    (o : Options) : Except Failure Options :=
  given.foldlM
    (fun (o : Options) (key, v) =>
      match o.put? (called key) v with
      | some o => .ok o
      | none => .error (unknown key)) o

variable {called : Value → Value} {unknown : Value → Failure} {stands : Value → String → Prop}
  [∀ key field, Decidable (stands key field)]

/-- A key that names a field puts its value there; any other key is refused. -/
theorem put?_called
    (hcalled : ∀ key, ∀ field ∈ names, called key = .string field ↔ stands key field)
    (o : Options) (key v : Value) :
    match o.put? (called key) v with
    | some o' => (∃ field ∈ names, stands key field) ∧
        o'.fields = o.fields.map fun e => (e.1, if stands key e.1 then v else e.2)
    | none => ¬∃ field ∈ names, stands key field := by
  cases hput : o.put? (called key) v with
  | none =>
    rintro ⟨field, hfield, hstands⟩
    obtain ⟨o', ho'⟩ := o.exists_put? v hfield
    rw [(hcalled key field hfield).mpr hstands, ho'] at hput
    cases hput
  | some o' =>
    obtain ⟨field, hfield, hkey, hfields⟩ := put?_fields hput
    refine ⟨⟨field, hfield, (hcalled key field hfield).mp hkey⟩, hfields.trans ?_⟩
    refine List.map_congr_left fun e he => ?_
    have hmem : e.1 ∈ names := o.fields_names ▸ List.mem_map_of_mem he
    simp only [← hcalled key e.1 hmem, hkey, Value.string.injEq, eq_comm]

/-- Pairs are read if every key names a field, and then each field has the last value that is
given for it. -/
theorem readInto_eq_ok
    (hcalled : ∀ key, ∀ field ∈ names, called key = .string field ↔ stands key field)
    (given : Named Value) : ∀ o o' : Options, readInto called unknown given o = .ok o'
      ↔ (∀ e ∈ given, ∃ field ∈ names, stands e.1 field) ∧
          o'.fields = o.fields.map fun e => (e.1, lastUnder (stands · e.1) given e.2) := by
  induction given with
  | nil =>
    intro o o'
    have hsame : o.fields.map (fun e => (e.1, lastUnder (stands · e.1) [] e.2)) = o.fields :=
      List.map_id _
    rw [hsame]
    exact ⟨fun h => ⟨by simp, congrArg fields (Except.ok.inj h).symm⟩,
      fun h => congrArg Except.ok (fields_injective h.2).symm⟩
  | cons e given ih =>
    obtain ⟨key, v⟩ := e
    intro o o'
    have hstep : readInto called unknown ((key, v) :: given) o
        = (match o.put? (called key) v with
          | some o => .ok o
          | none => .error (unknown key)) >>= readInto called unknown given := rfl
    have hput := put?_called hcalled o key v
    rw [hstep, List.forall_mem_cons]
    cases h : o.put? (called key) v with
    | none =>
      rw [h] at hput
      exact iff_of_false nofun fun h => hput h.1.1
    | some o₁ =>
      rw [h] at hput
      rw [ok_bind, ih, hput.2, List.map_map, and_iff_right hput.1]
      simp only [lastUnder_cons, Function.comp_def]

end Reading

/-! ## Checks -/

theorem checkNonNegative_eq_ok {name : String} {v : Value} {u : Unit} :
    checkNonNegative name v = .ok u ↔ v.ConvertsToCount 0 := by
  unfold checkNonNegative Value.ConvertsToCount
  rw [bind_eq_ok]
  refine exists_congr fun i => and_congr_right fun _ => ?_
  split
  · next h => exact iff_of_false nofun (by omega)
  · next h => exact iff_of_true rfl (by omega)

theorem checkAtLeastOne_eq_ok {name : String} {v : Value} {u : Unit} :
    checkAtLeastOne name v = .ok u ↔ v.ConvertsToCount 1 := by
  unfold checkAtLeastOne Value.ConvertsToCount
  rw [bind_eq_ok]
  refine exists_congr fun i => and_congr_right fun _ => ?_
  split
  · next h => exact iff_of_false nofun (by omega)
  · next h => exact iff_of_true rfl (by omega)

theorem checkPositive_eq_ok {name : String} {v : Value} {u : Unit} :
    checkPositive name v = .ok u ↔ v.IsPositive ∨ v.IsNaN := by
  unfold checkPositive
  rw [bind_eq_ok, ← Value.isAtMost_zero_eq_ok]
  constructor
  · rintro ⟨refused, hrefused, h⟩
    cases refused with
    | false => exact hrefused
    | true => cases h
  · exact fun h => ⟨false, h, rfl⟩

/-- Refuses a limit to the wait for a round, if there is one, that is not positive. -/
def checkWait (v : Value) : Except Failure Unit :=
  if v = .null then .ok () else checkPositive "timeout" v

theorem checkWait_eq_ok {v : Value} {u : Unit} :
    checkWait v = .ok u ↔ v = .null ∨ v.IsPositive ∨ v.IsNaN := by
  unfold checkWait
  split
  · next h => exact iff_of_true rfl (.inl h)
  · next h => rw [checkPositive_eq_ok, or_iff_right h]

/-- Counts and limits of which each meets a condition; there may be no limit to the wait for a
round. -/
structure Meets (count : Int → Value → Prop) (limit : Value → Prop) (o : Options) : Prop where
  maxIterations : count 0 o.maxIterations
  convergenceFrequency : count 0 o.convergenceFrequency
  cutSelectionFrequency : count 0 o.cutSelectionFrequency
  backwardPasses : count 1 o.backwardPasses
  forwardPasses : count 1 o.forwardPasses
  logFrequency : count 1 o.logFrequency
  timeLimit : limit o.timeLimit
  timeout : o.timeout = .null ∨ limit o.timeout

section Meets

variable {count count' : Int → Value → Prop} {limit limit' : Value → Prop} {o : Options}

theorem Meets.imp (h : o.Meets count limit) (hcount : ∀ least v, count least v → count' least v)
    (hlimit : ∀ v, limit v → limit' v) : o.Meets count' limit' :=
  ⟨hcount _ _ h.1, hcount _ _ h.2, hcount _ _ h.3, hcount _ _ h.4, hcount _ _ h.5, hcount _ _ h.6,
    hlimit _ h.7, h.8.imp_right (hlimit _)⟩

theorem Meets.and (h : o.Meets count limit) (h' : o.Meets count' limit') :
    o.Meets (fun least v => count least v ∧ count' least v) fun v => limit v ∧ limit' v :=
  ⟨⟨h.1, h'.1⟩, ⟨h.2, h'.2⟩, ⟨h.3, h'.3⟩, ⟨h.4, h'.4⟩, ⟨h.5, h'.5⟩, ⟨h.6, h'.6⟩, ⟨h.7, h'.7⟩,
    h.8.elim .inl fun hlimit => h'.8.imp_right (.intro hlimit)⟩

end Meets

/-- What the checks ask of counts and limits: the counts convert, and no limit is zero or
below. -/
def IsAccepted : Options → Prop :=
  Meets Value.ConvertsToCount fun v => v.IsPositive ∨ v.IsNaN

/-- Options that can be relied on: the counts are counts, the limits are above zero, and the
selection is called by its name. -/
structure IsUsable (o : Options) : Prop where
  figures : o.Meets Value.IsCount Value.IsPositive
  selection : ∃ s : Selection, o.cutSelection = .string s.name

/-- Options are accepted if they pass the checks and their selection is known, which goes by
its name from then on. -/
theorem validated_eq_ok {given o : Options} :
    given.validated = .ok o ↔ given.IsAccepted ∧ ∃ s : Selection,
      Selection.parse given.cutSelection = .ok s ∧
        o = { given with cutSelection := .string s.name } := by
  have hlimits : given.validated = (do
      checkNonNegative "max_iterations" given.maxIterations
      checkNonNegative "convergence_frequency" given.convergenceFrequency
      checkNonNegative "cut_selection_frequency" given.cutSelectionFrequency
      checkAtLeastOne "backward_passes" given.backwardPasses
      checkAtLeastOne "forward_passes" given.forwardPasses
      checkAtLeastOne "log_frequency" given.logFrequency
      checkPositive "time_limit" given.timeLimit
      checkWait given.timeout
      let selection ← Selection.parse given.cutSelection
      return { given with cutSelection := .string selection.name }) := by
    unfold validated checkWait
    cases given.timeout <;> rfl
  rw [hlimits]
  simp only [bind_eq_ok, checkNonNegative_eq_ok, checkAtLeastOne_eq_ok, checkPositive_eq_ok,
    checkWait_eq_ok, exists_const, pure_eq_ok]
  constructor
  · rintro ⟨h₁, h₂, h₃, h₄, h₅, h₆, h₇, h₈, s, hs, rfl⟩
    exact ⟨⟨h₁, h₂, h₃, h₄, h₅, h₆, h₇, h₈⟩, s, hs, rfl⟩
  · rintro ⟨⟨h₁, h₂, h₃, h₄, h₅, h₆, h₇, h₈⟩, s, hs, rfl⟩
    exact ⟨h₁, h₂, h₃, h₄, h₅, h₆, h₇, h₈, s, hs, rfl⟩

/-- Options that are accepted are usable exactly if their counts are whole and their limits are
numbers. -/
theorem IsAccepted.isUsable_iff {o : Options} (h : o.IsAccepted) {s : Selection}
    (hs : o.cutSelection = .string s.name) :
    o.IsUsable ↔ o.Meets (fun _ v => v.whole?.isSome = true) fun v => ¬v.IsNaN := by
  constructor
  · rintro ⟨hfigures, -⟩
    exact hfigures.imp (fun _ _ hcount => (Value.isCount_iff.mp hcount).2)
      fun _ hlimit => (Value.isPositive_iff.mp hlimit).2
  · exact fun hwhole => ⟨(h.and hwhole).imp (fun _ _ hcount => Value.isCount_iff.mpr hcount)
      fun _ hlimit => Value.isPositive_iff.mpr hlimit, s, hs⟩

/-! ## Options from pairs -/

/-- What options are made of pairs: every key names a field, the fields have the last values
that are given for them, these pass the checks, and the selection goes by its name. -/
structure IsReadFrom (stands : Value → String → Prop) [∀ key field, Decidable (stands key field)]
    (given : Named Value) (raw o : Options) : Prop where
  known : ∀ e ∈ given, ∃ field ∈ names, stands e.1 field
  fields : raw.fields
    = ({} : Options).fields.map fun e => (e.1, lastUnder (stands · e.1) given e.2)
  accepted : raw.IsAccepted
  selection : ∃ s : Selection, Selection.parse raw.cutSelection = .ok s ∧
    o = { raw with cutSelection := .string s.name }

theorem isReadFrom_iff (called : Value → Value) (unknown : Value → Failure)
    (stands : Value → String → Prop) [∀ key field, Decidable (stands key field)]
    (hcalled : ∀ key, ∀ field ∈ names, called key = .string field ↔ stands key field)
    {given : Named Value} {o : Options} :
    (readInto called unknown given {} >>= validated) = .ok o
      ↔ ∃ raw, IsReadFrom stands given raw o := by
  rw [bind_eq_ok]
  refine exists_congr fun raw => ?_
  rw [readInto_eq_ok hcalled, validated_eq_ok]
  exact ⟨fun ⟨⟨hknown, hfields⟩, haccepted, hs⟩ => ⟨hknown, hfields, haccepted, hs⟩,
    fun h => ⟨⟨h.known, h.fields⟩, h.accepted, h.selection⟩⟩

theorem ofParams_eq_ok {pairs : List (Value × Value)} {o : Options} :
    ofParams pairs = .ok o ↔ ∃ raw, IsReadFrom StandsFor (Named.ofPairs pairs) raw o :=
  isReadFrom_iff canonical (fun key => .misconfigured (.unknownOption key)) StandsFor
    fun _ _ hfield => canonical_eq_iff hfield

theorem ofFields_eq_ok {pairs : List (Value × Value)} {o : Options} :
    ofFields pairs = .ok o
      ↔ ∃ raw, IsReadFrom (fun key field => key = .string field) (Named.ofPairs pairs) raw o :=
  isReadFrom_iff id (fun _ => .wrongKind) (fun key field => key = .string field)
    fun _ _ _ => Iff.rfl

/-- The fields of options, as pairs to make options of. -/
def pairs (o : Options) : List (Value × Value) := o.fields.map fun e => (.string e.1, e.2)

theorem ofPairs_pairs (o : Options) : Named.ofPairs o.pairs = o.pairs := by
  refine Named.ofPairs_eq_self ?_
  have hkeys : o.pairs.map Prod.fst = names.map Value.string := by
    rw [← o.fields_names, pairs, List.map_map, List.map_map]
    rfl
  rw [hkeys, List.pairwise_map]
  refine names_nodup.imp fun hne => ?_
  rw [Bool.eq_false_iff, ne_eq, Value.isSame_string, Value.string.injEq]
  exact Ne.symm hne

/-- The last value under a name, among the fields of options, is that of the field. -/
theorem lastUnder_pairs {o : Options} {field : String} {v default : Value}
    (hv : (field, v) ∈ o.fields) : lastUnder (StandsFor · field) o.pairs default = v := by
  have hown : ∀ e ∈ o.fields, StandsFor (.string e.1) field → e.1 = field := by
    intro e he hstands
    have hfield : field ∈ names := o.fields_names ▸ List.mem_map_of_mem hv
    have hname : e.1 ∈ names := o.fields_names ▸ List.mem_map_of_mem he
    have hself := (canonical_eq_iff hname).mpr (.inl rfl)
    rw [(canonical_eq_iff hfield).mpr hstands] at hself
    exact (Value.string.inj hself).symm
  have hmem : (Value.string field, v) ∈ o.pairs := List.mem_map.mpr ⟨_, hv, rfl⟩
  refine lastUnder_eq hmem (.inl rfl) ?_
  rintro _ hmem hstands
  obtain ⟨e, he, rfl⟩ := List.mem_map.mp hmem
  have hsame := List.inj_on_of_nodup_map (f := Prod.fst) (o.fields_names ▸ names_nodup) he hv
    (hown e he hstands)
  rw [hsame]

/-- Options that have been accepted are made of their own fields. -/
theorem ofParams_pairs {o : Options} (h : o.IsAccepted) {s : Selection}
    (hs : o.cutSelection = .string s.name) : ofParams o.pairs = .ok o := by
  rw [ofParams_eq_ok, ofPairs_pairs]
  refine ⟨o, ?_, ?_, h, s, ?_, ?_⟩
  · intro e he
    obtain ⟨f, hf, rfl⟩ := List.mem_map.mp he
    exact ⟨f.1, o.fields_names ▸ List.mem_map_of_mem hf, .inl rfl⟩
  · have hvalue : ∀ e ∈ ({} : Options).fields,
        lastUnder (StandsFor · e.1) o.pairs e.2 = lastUnder (StandsFor · e.1) o.pairs .null := by
      intro e he
      have hname : e.1 ∈ o.fields.map Prod.fst := o.fields_names ▸ List.mem_map_of_mem he
      obtain ⟨⟨field, v⟩, hv, hfield⟩ := List.mem_map.mp hname
      rw [← hfield, lastUnder_pairs hv, lastUnder_pairs hv]
    calc o.fields
        = o.fields.map fun e => (e.1, lastUnder (StandsFor · e.1) o.pairs .null) :=
          (List.map_id _).symm.trans (List.map_congr_left fun e he =>
            Prod.ext rfl (lastUnder_pairs he).symm)
      _ = names.map fun field => (field, lastUnder (StandsFor · field) o.pairs .null) := by
          rw [← o.fields_names, List.map_map]
          rfl
      _ = ({} : Options).fields.map fun e => (e.1, lastUnder (StandsFor · e.1) o.pairs e.2) := by
          rw [names, List.map_map]
          exact List.map_congr_left fun e he => Prod.ext rfl (hvalue e he).symm
  · rw [hs, Selection.parse_name]
  · rw [← hs]

/-- Options are read from pairs as their names say, the last value of a name and its other names
counting, and those that are accepted are kept as they were given.  They are usable exactly if
the counts among them are whole and the limits are numbers, and made of their own fields they
are the same again. -/
theorem accepted_usable (pairs : List (Value × Value)) (o : Options) :
    (ofParams pairs = .ok o ↔ ∃ raw, IsReadFrom StandsFor (Named.ofPairs pairs) raw o) ∧
    (ofFields pairs = .ok o
      ↔ ∃ raw, IsReadFrom (fun key field => key = .string field) (Named.ofPairs pairs) raw o) ∧
    (ofParams pairs = .ok o ∨ ofFields pairs = .ok o →
      (o.IsUsable ↔ o.Meets (fun _ v => v.whole?.isSome = true) fun v => ¬v.IsNaN) ∧
      ofParams o.pairs = .ok o) := by
  refine ⟨ofParams_eq_ok, ofFields_eq_ok, fun h => ?_⟩
  obtain ⟨raw, haccepted, s, rfl⟩ : ∃ raw : Options, raw.IsAccepted ∧ ∃ s : Selection,
      o = { raw with cutSelection := .string s.name } := by
    rcases h with h | h
    · obtain ⟨raw, hread⟩ := ofParams_eq_ok.mp h
      obtain ⟨s, -, hs⟩ := hread.selection
      exact ⟨raw, hread.accepted, s, hs⟩
    · obtain ⟨raw, hread⟩ := ofFields_eq_ok.mp h
      obtain ⟨s, -, hs⟩ := hread.selection
      exact ⟨raw, hread.accepted, s, hs⟩
  have hkept : IsAccepted { raw with cutSelection := .string s.name } := { haccepted with }
  exact ⟨hkept.isUsable_iff rfl, ofParams_pairs hkept rfl⟩

/-- A count of minus one half is accepted, and so are a time limit that is no number and a count
that is a text. -/
theorem accepted_usable_fraction :
    let given : List (Value × Value) :=
      [("max_iters", .float (-0.5)), ("time_limit_s", .float Binary64.nan), ("forward_passes", "5")]
    let o : Options :=
      { maxIterations := .float (-0.5), timeLimit := .float Binary64.nan, forwardPasses := "5" }
    ofParams given = .ok o ∧ ¬o.IsUsable ∧ ofParams o.pairs = .ok o := by
  intro given o
  have hhalf : o.maxIterations.ConvertsToCount 0 := by
    have hparts : Binary64.read (-0.5) = .finite true (2 ^ 52) (-53) := by decide +kernel
    refine ⟨0, ?_, le_rfl⟩
    show Value.truncate (-0.5) = _
    rw [Value.truncate, hparts]
    rfl
  have hread : IsReadFrom StandsFor (Named.ofPairs given) o o :=
    { known := by decide +kernel
      fields := by decide +kernel
      accepted := ⟨hhalf, ⟨5, rfl, by decide⟩, ⟨0, rfl, by decide⟩, ⟨1, rfl, by decide⟩,
        ⟨5, rfl, by decide⟩, ⟨1, rfl, by decide⟩,
        .inr ⟨Binary64.nan, rfl, by decide +kernel⟩, .inl rfl⟩
      selection := ⟨.all, Selection.parse_name .all, rfl⟩ }
  have haccepted : ofParams given = .ok o := (accepted_usable given o).1.mpr ⟨o, hread⟩
  obtain ⟨husable, hagain⟩ := (accepted_usable given o).2.2 (.inl haccepted)
  refine ⟨haccepted, fun h => ?_, hagain⟩
  cases (husable.mp h).maxIterations

end Options

end Multistage
