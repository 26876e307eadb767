/-
Multistage.Proofs.Cut.Session — series of calls on a cut store.

A store that has been made is changed by calls that add cuts and points, join deltas and
count votes, any of which may be refused.  Votes are kept as long as cuts and points stay
as they are and dropped otherwise, so votes that a store has are those of a new count
(`Store.after_current`).  A call that is refused changes nothing, with one exception: a cut
that is appended together with a point stays when the point is refused.  Without such
calls, and only then, refused calls leave no trace (`Store.after_succeeding_iff`).
-/
import Multistage.Cut.Reading
import Multistage.Proofs.Cut.LevelOne
import Multistage.Proofs.Round.Union

namespace Multistage

/-! ## Calls -/

/-- A call on a store, with what it is given. -/
inductive Store.Call where
  | append (cut point : Value)
  | addPoint (point : Value)
  | merge (deltas : List Value)
  | recount (sense : Value)

namespace Store

/-- What a call does. -/
def Call.op : Call → Transition (Store Float) Unit
  | append cut point => Store.appendOf cut point
  | addPoint point => Store.addPointOf point
  | merge deltas => discard (Store.mergeOf deltas)
  | recount sense => do
    let sense ← Transition.outcome (Sense.parse sense)
    modify (Store.recount sense)

/-- The store after some calls. -/
def after (s : Store Float) (calls : List Call) : Store Float :=
  calls.foldl (fun s call => (call.op.perform s).2) s

@[simp] theorem after_nil (s : Store Float) : s.after [] = s := rfl

@[simp] theorem after_cons (s : Store Float) (call : Call) (later : List Call) :
    s.after (call :: later) = (call.op.perform s).2.after later := rfl

theorem after_append (s : Store Float) (calls later : List Call) :
    s.after (calls ++ later) = (s.after calls).after later :=
  List.foldl_append

/-! ## Single calls -/

section Operations

variable {α : Type}

theorem addCut_perform (c : Cut α) (s : Store α) :
    (addCut c).perform s = match s.checkCut c with
      | .ok _ => (.ok ⟨⟩, { s with cuts := s.cuts ++ [c], votes := none })
      | .error e => (.error e, s) := by
  unfold addCut
  simp only [Transition.perform_bind, Transition.perform_get, Transition.perform_outcome]
  cases s.checkCut c <;> rfl

theorem addPoint_perform (p : Point α) (s : Store α) :
    (addPoint p).perform s = match s.checkPoint p with
      | .ok _ => (.ok ⟨⟩, { s with points := s.points ++ [p], votes := none })
      | .error e => (.error e, s) := by
  unfold addPoint
  simp only [Transition.perform_bind, Transition.perform_get, Transition.perform_outcome]
  cases s.checkPoint p <;> rfl

theorem addCut_ok {c : Cut α} {s : Store α} (h : (c.coefficients.length : Int) = s.stateCount) :
    (addCut c).perform s = (.ok ⟨⟩, { s with cuts := s.cuts ++ [c], votes := none }) := by
  rw [addCut_perform, checkCut, if_pos h]

theorem addCut_refused {c : Cut α} {s : Store α}
    (h : (c.coefficients.length : Int) ≠ s.stateCount) :
    (addCut c).perform s
      = (.error (.mismatched (.cutLength c.coefficients.length s.stateCount)), s) := by
  rw [addCut_perform, checkCut, if_neg h]

theorem addPoint_ok {p : Point α} {s : Store α} (h : (p.length : Int) = s.stateCount) :
    (addPoint p).perform s = (.ok ⟨⟩, { s with points := s.points ++ [p], votes := none }) := by
  rw [addPoint_perform, checkPoint, if_pos h]

theorem addPoint_refused {p : Point α} {s : Store α} (h : (p.length : Int) ≠ s.stateCount) :
    (addPoint p).perform s
      = (.error (.mismatched (.pointLength p.length s.stateCount)), s) := by
  rw [addPoint_perform, checkPoint, if_neg h]

end Operations

/-- A store of the same dimension that is as it was, or has lost its votes. -/
def Follows {α : Type} (s t : Store α) : Prop :=
  t.stateCount = s.stateCount ∧ (t = s ∨ t.votes = none)

section Operations

variable {α : Type}

/-- Adding a cut drops the votes, unless it is refused. -/
theorem addCut_follows (c : Cut α) (s : Store α) :
    Transition.Ensures s.Follows (addCut c) fun _ => True := by
  intro t ht
  rw [addCut_perform]
  cases t.checkCut c with
  | ok _ => exact ⟨⟨ht.1, .inr rfl⟩, fun _ _ => True.intro⟩
  | error e => exact ⟨ht, fun _ _ => True.intro⟩

theorem addPoint_follows (p : Point α) (s : Store α) :
    Transition.Ensures s.Follows (addPoint p) fun _ => True := by
  intro t ht
  rw [addPoint_perform]
  cases t.checkPoint p with
  | ok _ => exact ⟨⟨ht.1, .inr rfl⟩, fun _ _ => True.intro⟩
  | error e => exact ⟨ht, fun _ _ => True.intro⟩

variable [Scalar α]

theorem united_eq_self {s : Store α} {deltas : List (Delta α)} (h : s.adds deltas = false) :
    s.united deltas = s := by
  obtain ⟨hpoints, hcuts⟩ := adds_eq_false.mp h
  unfold united
  rw [hpoints, hcuts, h]
  simp

/-- Joining deltas drops the votes, unless nothing is new. -/
theorem merge_follows (deltas : List (Delta α)) (s : Store α) :
    Transition.Ensures s.Follows (merge deltas) fun _ => True := by
  intro t ht
  rw [merge_perform]
  cases t.checkDeltas deltas with
  | error e => exact ⟨ht, fun _ _ => True.intro⟩
  | ok _ =>
    refine ⟨?_, fun _ _ => True.intro⟩
    cases hadds : t.adds deltas with
    | false =>
      rw [united_eq_self hadds]
      exact ht
    | true => exact ⟨ht.1, .inr (if_pos hadds)⟩

theorem addPointOf_follows (point : Value) (s : Store Float) :
    Transition.Ensures s.Follows (addPointOf point) fun _ => True :=
  (Transition.Ensures.outcome fun _ _ => True.intro).bind fun p _ => addPoint_follows p s

theorem appendOf_follows (cut point : Value) (s : Store Float) :
    Transition.Ensures s.Follows (appendOf cut point) fun _ => True := by
  unfold appendOf
  refine (Transition.Ensures.outcome fun _ _ => True.intro).bind fun c _ =>
    (addCut_follows c s).bind fun _ _ => ?_
  split
  · exact .pure True.intro
  · exact addPointOf_follows point s

theorem mergeOf_follows (deltas : List Value) (s : Store Float) :
    Transition.Ensures s.Follows (mergeOf deltas) fun _ => True :=
  Transition.Ensures.get.bind fun _ _ =>
    (Transition.Ensures.outcome fun _ _ => True.intro).bind fun ds _ => merge_follows ds s

end Operations

/-- The sense in which a call counts votes, if it does. -/
def Call.sense? : Call → Option Sense
  | recount sense => (Sense.parse sense).toOption
  | _ => none

/-- A call counts the votes, or it leaves a store as it is, or it drops the votes. -/
theorem Call.perform_cases (call : Call) (s : Store Float) :
    (∃ sense, call.sense? = some sense ∧ (call.op.perform s).2 = s.recount sense) ∨
      call.sense? = none ∧ s.Follows (call.op.perform s).2 := by
  have hself : s.Follows s := ⟨rfl, .inl rfl⟩
  cases call with
  | append cut point => exact .inr ⟨rfl, (appendOf_follows cut point s s hself).1⟩
  | addPoint point => exact .inr ⟨rfl, (addPointOf_follows point s s hself).1⟩
  | merge deltas => exact .inr ⟨rfl, ((mergeOf_follows deltas s).discard s hself).1⟩
  | recount sense =>
    unfold op sense?
    dsimp only
    rw [Transition.perform_bind, Transition.perform_outcome]
    cases Sense.parse sense with
    | ok read => exact .inl ⟨read, rfl, rfl⟩
    | error e => exact .inr ⟨rfl, hself⟩

theorem Call.stateCount_perform (call : Call) (s : Store Float) :
    (call.op.perform s).2.stateCount = s.stateCount := by
  rcases call.perform_cases s with ⟨sense, -, hcounted⟩ | ⟨-, hfollows⟩
  · rw [hcounted]
    rfl
  · exact hfollows.1

theorem after_stateCount (calls : List Call) :
    ∀ s : Store Float, (s.after calls).stateCount = s.stateCount := by
  induction calls with
  | nil => exact fun _ => rfl
  | cons call later ih => exact fun s => (ih _).trans (call.stateCount_perform s)

/-! ## Votes -/

/-- A store that has been made has no votes. -/
theorem votes_of_ofRecord {v : Value} {s : Store Float} (h : ofRecord v = .ok s) :
    s.votes = none := by
  unfold ofRecord at h
  obtain ⟨cuts, -, h⟩ := bind_eq_ok.mp h
  obtain ⟨n, -, h⟩ := bind_eq_ok.mp h
  obtain ⟨_, -, h⟩ := bind_eq_ok.mp h
  cases pure_eq_ok.mp h
  have hfill : Transition.Ensures (empty n).Follows (do
      cuts.forM addCut
      (v.field "points").items.forM addPointOf) fun _ => True :=
    (Transition.Ensures.forM fun c _ => addCut_follows c _).bind fun _ _ =>
      Transition.Ensures.forM fun point _ => addPointOf_follows point _
  obtain ⟨-, hempty | hnone⟩ := (hfill (empty n) ⟨rfl, .inl rfl⟩).1
  · exact congrArg Store.votes hempty
  · exact hnone

/-- The sense of the last count. -/
def Call.lastSense (calls : List Call) : Option Sense := (calls.filterMap Call.sense?).getLast?

theorem Call.lastSense_concat (calls : List Call) (call : Call) :
    lastSense (calls ++ [call]) = call.sense?.or (lastSense calls) := by
  unfold lastSense
  rw [List.filterMap_append, List.getLast?_append, List.filterMap_cons, List.filterMap_nil]
  cases call.sense? <;> rfl

/-- Whether a store has no votes, or those of a new count in a sense. -/
def HasVotesOf (last : Option Sense) (s : Store Float) : Prop :=
  s.votes = none ∨ ∃ sense, last = some sense ∧ s.votes = some (.counted (s.countVotes sense))

/-- After any calls the votes are those of the last count, or there are none. -/
theorem after_hasVotesOf {s : Store Float} (h : s.votes = none) (calls : List Call) :
    (s.after calls).HasVotesOf (Call.lastSense calls) := by
  -- the last call comes off first, since it changes what the others have left
  induction calls using List.reverseRecOn with
  | nil => exact .inl h
  | append_singleton calls call ih =>
    rw [after_append, Call.lastSense_concat]
    show ((call.op.perform (s.after calls)).2).HasVotesOf _
    rcases call.perform_cases (s.after calls) with ⟨sense, hsense, hcounted⟩ | ⟨hsense, -, hkept⟩
    · rw [hcounted, hsense]
      exact .inr ⟨sense, rfl, rfl⟩
    · rw [hsense, Option.none_or]
      rcases hkept with hsame | hnone
      · rw [hsame]
        exact ih
      · exact .inl hnone

/-- Votes are never out of date: after any calls, a store that has been made has no votes,
or one for each cut, as a new count in the last sense has them.  So the cuts that it selects
are all cuts, or those that win a point, and every cut that wins a point is among them. -/
theorem after_current {v : Value} {s : Store Float} (hmade : ofRecord v = .ok s)
    (calls : List Call) :
    let t := s.after calls
    let last := Call.lastSense calls
    (t.votes = none ∨ ∃ sense votes, last = some sense ∧ t.votes = some (.counted votes) ∧
      votes = t.countVotes sense ∧ votes.length = t.cuts.length) ∧
    ∃ kept, t.undominated = .ok kept ∧
      (kept = t.cuts ∨ ∃ sense, last = some sense ∧ kept = t.leaders sense) ∧
      ∀ sense, last = some sense → ∀ p ∈ t.points, ∀ k c, t.bestAt sense p = some k →
        t.cuts[k]? = some c → c ∈ kept := by
  intro t last
  rcases after_hasVotesOf (votes_of_ofRecord hmade) calls with hnone | ⟨sense, hlast, hvotes⟩
  · refine ⟨.inl hnone, t.cuts, undominated_of_none hnone, .inl rfl, ?_⟩
    intro _ _ _ _ _ _ _ hc
    exact List.mem_of_getElem? hc
  · refine ⟨.inr ⟨sense, _, hlast, hvotes, rfl, length_countVotes sense t⟩, _,
      undominated_of_counted hvotes, ?_, ?_⟩
    · split
      · exact .inl rfl
      · exact .inr ⟨sense, hlast, rfl⟩
    · intro sense' hlast' p hp k c hbest hc
      cases hlast.symm.trans hlast'
      rw [if_neg (List.ne_nil_of_mem hp)]
      exact mem_leaders hp hbest hc

/-- A cut, a count and a point that is refused: the votes stay. -/
theorem after_current_refused :
    let v := Value.record [("n_states", .int 1)]
    let cut := Value.list [.float 0.0, .list [.float 1.0]]
    let calls := [Call.append cut (.list [.float 2.0]), .recount "min",
      .addPoint (.list [.float 1.0, .float 2.0])]
    let t := (empty 1).after calls
    ofRecord v = .ok (empty 1) ∧ Call.lastSense calls = some .min ∧ t.votes.isSome = true ∧
      (t.votes = none ∨ ∃ sense votes, Call.lastSense calls = some sense ∧
        t.votes = some (.counted votes) ∧ votes = t.countVotes sense ∧
        votes.length = t.cuts.length) := by
  intro v cut calls t
  have hmade : ofRecord v = .ok (empty 1) := rfl
  exact ⟨hmade, rfl, rfl, (after_current hmade calls).1⟩

/-! ## Refused calls -/

/-- Whether a value is read as a cut of a dimension. -/
def isCutOf (n : Int) (cut : Value) : Bool :=
  match Cut.ofValue cut with
  | .ok c => decide ((c.coefficients.length : Int) = n)
  | .error _ => false

/-- Whether a value is read as a point of a dimension. -/
def isPointOf (n : Int) (point : Value) : Bool :=
  match Tensor.flatten point with
  | .ok p => decide ((p.length : Int) = n)
  | .error _ => false

namespace Call

/-- Whether a call on a store of a dimension adds its cut and is then refused for its
point. -/
def isHalfDone (n : Int) : Call → Bool
  | append _ .null => false
  | append cut point => isCutOf n cut && !isPointOf n point
  | _ => false

theorem isHalfDone_append {n : Int} {cut point : Value} (h : point ≠ .null) :
    (append cut point).isHalfDone n = (isCutOf n cut && !isPointOf n point) := by
  cases point with
  | null => exact absurd rfl h
  | _ => rfl

/-- The call without a point beside its cut. -/
def withoutPoint : Call → Call
  | append cut _ => append cut .null
  | call => call

end Call

theorem addPointOf_refused {s : Store Float} {point : Value}
    (h : isPointOf s.stateCount point = false) :
    ∃ e, (addPointOf point).perform s = (.error e, s) := by
  unfold isPointOf at h
  unfold addPointOf
  cases hread : Tensor.flatten point with
  | error e => exact ⟨e, Transition.perform_bind_error rfl⟩
  | ok p =>
    rw [hread] at h
    exact ⟨_, (Transition.perform_bind_ok rfl).trans (addPoint_refused (of_decide_eq_false h))⟩

theorem addPointOf_ok {s : Store Float} {point : Value}
    (h : isPointOf s.stateCount point = true) :
    ∃ t, (addPointOf point).perform s = (.ok ⟨⟩, t) := by
  unfold isPointOf at h
  unfold addPointOf
  cases hread : Tensor.flatten point with
  | error e =>
    rw [hread] at h
    cases h
  | ok p =>
    rw [hread] at h
    exact ⟨_, (Transition.perform_bind_ok rfl).trans (addPoint_ok (of_decide_eq_true h))⟩

theorem appendOf_refused {s : Store Float} {cut : Value} (h : isCutOf s.stateCount cut = false)
    (point : Value) : ∃ e, (appendOf cut point).perform s = (.error e, s) := by
  unfold isCutOf at h
  unfold appendOf
  cases hread : Cut.ofValue cut with
  | error e => exact ⟨e, Transition.perform_bind_error rfl⟩
  | ok c =>
    rw [hread] at h
    exact ⟨_, (Transition.perform_bind_ok rfl).trans
      (Transition.perform_bind_error (addCut_refused (of_decide_eq_false h)))⟩

/-- With a cut that fits, a call adds the cut and then goes on with the point. -/
theorem appendOf_fits {s : Store Float} {cut : Value} (h : isCutOf s.stateCount cut = true) :
    ∃ c, (appendOf cut .null).perform s
        = (.ok ⟨⟩, { s with cuts := s.cuts ++ [c], votes := none }) ∧
      ∀ point, point ≠ .null → (appendOf cut point).perform s
        = (addPointOf point).perform { s with cuts := s.cuts ++ [c], votes := none } := by
  unfold isCutOf at h
  unfold appendOf
  cases hread : Cut.ofValue cut with
  | error e =>
    rw [hread] at h
    cases h
  | ok c =>
    rw [hread] at h
    have hadd := addCut_ok (of_decide_eq_true h)
    refine ⟨c, (Transition.perform_bind_ok rfl).trans (Transition.perform_bind_ok hadd),
      fun point hpoint => (Transition.perform_bind_ok rfl).trans
        ((Transition.perform_bind_ok hadd).trans ?_)⟩
    cases point with
    | null => exact absurd rfl hpoint
    | _ => rfl

theorem addPointOf_leaves {s t : Store Float} {point : Value} {e : Failure}
    (h : (addPointOf point).perform s = (.error e, t)) : t = s := by
  cases hpoint : isPointOf s.stateCount point with
  | false =>
    obtain ⟨e', he'⟩ := addPointOf_refused hpoint
    exact (Prod.mk.inj (h.symm.trans he')).2
  | true =>
    obtain ⟨t', ht'⟩ := addPointOf_ok hpoint
    rw [ht'] at h
    cases h

theorem appendOf_leaves {s t : Store Float} {cut point : Value} {e : Failure}
    (hdone : (Call.append cut point).isHalfDone s.stateCount = false)
    (h : (appendOf cut point).perform s = (.error e, t)) : t = s := by
  cases hcut : isCutOf s.stateCount cut with
  | false =>
    obtain ⟨e', he'⟩ := appendOf_refused hcut point
    exact (Prod.mk.inj (h.symm.trans he')).2
  | true =>
    -- the cut is added, and the point is missing or is added as well
    obtain ⟨c, halone, hwith⟩ := appendOf_fits hcut
    by_cases hnull : point = .null
    · rw [hnull, halone] at h
      cases h
    · rw [Call.isHalfDone_append hnull, hcut, Bool.true_and, Bool.not_eq_false'] at hdone
      obtain ⟨t', ht'⟩ := addPointOf_ok (s := { s with cuts := s.cuts ++ [c], votes := none }) hdone
      rw [hwith point hnull, ht'] at h
      cases h

theorem mergeOf_leaves {s t : Store Float} {deltas : List Value} {e : Failure}
    (h : (mergeOf deltas).perform s = (.error e, t)) : t = s := by
  unfold mergeOf at h
  rw [Transition.perform_bind_ok (Transition.perform_get s), Transition.perform_bind,
    Transition.perform_outcome] at h
  cases hread : s.readDeltas deltas with
  | error e' =>
    rw [hread] at h
    exact (Prod.mk.inj h).2.symm
  | ok ds =>
    rw [hread] at h
    dsimp only at h
    rw [merge_perform] at h
    split at h
    · cases h
    · exact (Prod.mk.inj h).2.symm

namespace Call

/-- A call that is refused half done has added its cut, as it would have without its
point. -/
theorem perform_halfDone {call : Call} {s : Store Float}
    (h : call.isHalfDone s.stateCount = true) :
    ∃ c e, call.op.perform s = (.error e, { s with cuts := s.cuts ++ [c], votes := none }) ∧
      call.withoutPoint.op.perform s
        = (.ok ⟨⟩, { s with cuts := s.cuts ++ [c], votes := none }) := by
  unfold isHalfDone at h
  split at h
  · cases h
  · rename_i cut point hpoint
    obtain ⟨hcut, hrefused⟩ := Bool.and_eq_true_iff.mp h
    obtain ⟨c, halone, hwith⟩ := appendOf_fits hcut
    obtain ⟨e, he⟩ := addPointOf_refused
      (s := { s with cuts := s.cuts ++ [c], votes := none }) ((Bool.not_eq_true' _).mp hrefused)
    exact ⟨c, e, (hwith point hpoint).trans he, halone⟩
  · cases h

/-- Any other call that is refused changes nothing. -/
theorem perform_refused {call : Call} {s t : Store Float} {e : Failure}
    (hdone : call.isHalfDone s.stateCount = false) (h : call.op.perform s = (.error e, t)) :
    t = s := by
  cases call with
  | append cut point => exact appendOf_leaves hdone h
  | addPoint point => exact addPointOf_leaves h
  | merge deltas => exact mergeOf_leaves (Transition.perform_discard_eq_error.mp h)
  | recount sense =>
    unfold op at h
    dsimp only at h
    rw [Transition.perform_bind, Transition.perform_outcome] at h
    cases hread : Sense.parse sense with
    | error e' =>
      rw [hread] at h
      exact (Prod.mk.inj h).2.symm
    | ok read =>
      rw [hread] at h
      cases h

end Call

/-! ## Refused calls in series -/

/-- The calls of a series with other calls in the place of each one that is refused. -/
def replacing (left : Call → List Call) : Store Float → List Call → List Call
  | _, [] => []
  | s, call :: later =>
    match call.op.perform s with
    | (.ok _, t) => call :: replacing left t later
    | (.error _, t) => left call ++ replacing left t later

/-- The calls of a series that are not refused. -/
def succeeding (s : Store Float) (calls : List Call) : List Call :=
  s.replacing (fun _ => []) calls

/-- What is left of a call that is refused: the addition of its cut, if it was half
done. -/
def Call.remnant (n : Int) (call : Call) : List Call :=
  if call.isHalfDone n then [call.withoutPoint] else []

theorem replacing_append (left : Call → List Call) (calls later : List Call) :
    ∀ s : Store Float, s.replacing left (calls ++ later)
      = s.replacing left calls ++ (s.after calls).replacing left later := by
  induction calls with
  | nil => exact fun _ => rfl
  | cons call calls ih =>
    intro s
    rw [List.cons_append, replacing, replacing, after_cons]
    rcases call.op.perform s with ⟨r, t⟩
    cases r with
    | ok u =>
      dsimp only
      rw [ih t, List.cons_append]
    | error e =>
      dsimp only
      rw [ih t, List.append_assoc]

/-- Calls in the place of refused ones lead to the same store, if each of them does. -/
theorem after_replacing {left : Call → List Call} {n : Int} {calls : List Call}
    (hleft : ∀ call ∈ calls, ∀ (s : Store Float) e t, s.stateCount = n →
      call.op.perform s = (.error e, t) → s.after (left call) = t) :
    ∀ s : Store Float, s.stateCount = n → s.after (s.replacing left calls) = s.after calls := by
  induction calls with
  | nil => exact fun _ _ => rfl
  | cons call later ih =>
    intro s hs
    obtain ⟨hcall, hlater⟩ := List.forall_mem_cons.mp hleft
    have hcount := call.stateCount_perform s
    have hrest := ih hlater (call.op.perform s).2 (hcount.trans hs)
    rw [replacing, after_cons]
    cases hrun : call.op.perform s with
    | mk r t =>
      rw [hrun] at hrest
      cases r with
      | ok u =>
        dsimp only at hrest ⊢
        rw [after_cons, hrun]
        exact hrest
      | error e =>
        dsimp only at hrest ⊢
        rw [after_append, hcall s e t hs hrun]
        exact hrest

/-- A series leads to the same store as the series of its accepted calls and of the cuts
that refused calls leave behind.  At every point of a series its accepted calls alone lead
to the same store exactly if no call of it adds its cut and is refused for its point. -/
theorem after_succeeding_iff (s : Store Float) (calls : List Call) :
    s.after (s.replacing (Call.remnant s.stateCount) calls) = s.after calls ∧
    ((∀ earlier, earlier <+: calls → s.after (s.succeeding earlier) = s.after earlier) ↔
      ∀ call ∈ calls, call.isHalfDone s.stateCount = false) := by
  constructor
  · refine after_replacing (n := s.stateCount) (fun call _ s' e t hs' hrefused => ?_) s rfl
    unfold Call.remnant
    rw [← hs']
    split
    · rename_i hdone
      obtain ⟨c, e', hhalf, halone⟩ := Call.perform_halfDone hdone
      rw [after_cons, after_nil, halone]
      exact (Prod.mk.inj (hhalf.symm.trans hrefused)).2
    · rename_i hdone
      exact (Call.perform_refused (Bool.eq_false_iff.mpr hdone) hrefused).symm
  · constructor
    · intro hsame call hcall
      by_contra hdone
      obtain ⟨before, later, rfl⟩ := List.append_of_mem hcall
      have hbefore := hsame before (List.prefix_append _ _)
      have hwith := hsame (before ++ [call]) ⟨later, by simp⟩
      have hcount := after_stateCount before s
      rw [Bool.not_eq_false, ← hcount] at hdone
      obtain ⟨c, e, hhalf, -⟩ := Call.perform_halfDone hdone
      have hnone : (s.after before).succeeding [call] = [] := by
        rw [succeeding, replacing, hhalf]
        rfl
      have hdropped : s.succeeding (before ++ [call]) = s.succeeding before := by
        unfold succeeding at hnone ⊢
        rw [replacing_append, hnone, List.append_nil]
      rw [hdropped, hbefore, after_append, after_cons, after_nil, hhalf] at hwith
      have hcuts := congrArg (fun t => t.cuts.length) hwith
      simp at hcuts
    · rintro hdone earlier ⟨later, rfl⟩
      refine after_replacing (n := s.stateCount) (fun call hcall s' e t hs' hrefused => ?_) s rfl
      rw [after_nil]
      refine (Call.perform_refused ?_ hrefused).symm
      rw [hs']
      exact hdone call (List.mem_append_left _ hcall)

/-- A cut whose point has too many entries is refused, and stays. -/
theorem halfDone_append_stays :
    let cut := Value.list [.float 0.0, .list [.float 1.0]]
    let call := Call.append cut (.list [.float 1.0, .float 2.0])
    (call.op.perform (empty 1)).1.isOk = false ∧ ((empty 1).after [call]).cuts.length = 1 ∧
      (empty 1).succeeding [call] = [] ∧
      (empty 1).after [call] ≠ (empty 1).after ((empty 1).succeeding [call]) := by
  intro cut call
  have hcuts : ((empty 1).after [call]).cuts.length = 1 := rfl
  refine ⟨rfl, hcuts, rfl, fun hsame => ?_⟩
  rw [hsame] at hcuts
  cases hcuts

end Store

end Multistage
