import LeanRs.Abi.IoResult

/-! Decoding the result of an `IO` action: what is told of it, and whose counts change. -/
namespace LeanRs

open Procedures RefCounting Procedure

def countOf (h : LeanHeap) (a : Nat) : Nat :=
  match h.cell a with
  | none => 0
  | some c => c.rc.natAbs

/-- One reference to `result` was given up for those in `taken`. The references in the objects that
went along with the result are given up too. -/
structure HandedOver (h : LeanHeap) (result : Nat) (taken : List Ref) (now : LeanHeap) :
    Prop where
  shrinks : Shrinks h now
  counted : ∀ a c, h.cell a = some c → c.rc ≠ 0 →
    countOf now a + inRefs HeapObject.addresses (gone h now) a + (if a = result then 1 else 0) =
      c.rc.natAbs + taken.count (.addr a)
  uncounted : ∀ a c, h.cell a = some c → c.rc = 0 → now.cell a = some c
  freed : ∀ a c, h.cell a = some c → now.cell a = none → now.cell result = none

section Counts

variable {h now : LeanHeap} {roots : Nat → Nat} {handles taken : List Ref} {a result : Nat}
  {c c' : Cell HeapObject}

theorem Held.countOf (held : Held h roots handles) (counts : ∀ c, h.cell a = some c → c.rc ≠ 0) :
    countOf h a = inRefs HeapObject.addresses h a + (roots a + handles.count (.addr a)) := by
  unfold LeanRs.countOf
  cases live : h.cell a with
  | none => exact (held.dead a live).symm
  | some c => exact held.counted a c live (counts c live)

theorem count_addr_cons (a b : Nat) (rs : List Ref) :
    (Ref.addr b :: rs).count (.addr a) = rs.count (.addr a) + if a = b then 1 else 0 := by
  by_cases same : a = b
  · subst same
    rw [List.count_cons_self, if_pos rfl]
  · rw [List.count_cons_of_ne (by simpa using Ne.symm same), if_neg same, Nat.add_zero]

theorem still_counted (shrinks : Shrinks h now) (live : h.cell a = some c) (counts : c.rc ≠ 0)
    (live' : now.cell a = some c') : c'.rc ≠ 0 := by
  obtain ⟨d, at_a, -, sign⟩ := shrinks a c' live'
  rw [live] at at_a
  cases at_a
  intro zero
  rw [zero, Int.sign_zero, eq_comm, Int.sign_eq_zero_iff_zero] at sign
  exact counts sign

theorem Since.counted (held : Held h roots (.addr result :: handles))
    (since : Since h roots (taken ++ handles) now) (live : h.cell a = some c)
    (counts : c.rc ≠ 0) :
    countOf now a + inRefs HeapObject.addresses (gone h now) a + (if a = result then 1 else 0) =
      c.rc.natAbs + taken.count (.addr a) := by
  have before := held.counted a c live counts
  have after := since.held.countOf fun c' => still_counted since.shrinks live counts
  have split := inRefs_gone HeapObject.addresses since.shrinks a
  rw [count_addr_cons] at before
  rw [List.count_append] at after
  omega

theorem uncounted_stays
    (since : ∀ roots, Held h roots (.addr result :: handles) → Since h roots (taken ++ handles) now)
    (held : Held h roots (.addr result :: handles)) (live : h.cell a = some c) (zero : c.rc = 0) :
    now.cell a = some c := by
  have watched : Held h (fun b => if b = a then roots b + 1 else roots b)
      (.addr result :: handles) := by
    apply Consistent.uncounted held live zero
    intro b other
    dsimp only
    rw [if_neg other]
  have kept := since _ watched
  have owner : 0 < inRefs HeapObject.addresses now a +
      ((if a = a then roots a + 1 else roots a) + (taken ++ handles).count (.addr a)) := by
    rw [if_pos rfl]
    omega
  obtain ⟨c', live'⟩ := Consistent.alive kept.held owner
  obtain ⟨d, at_a, body, sign⟩ := kept.shrinks a c' live'
  rw [live] at at_a
  cases at_a
  rw [zero, Int.sign_zero, Int.sign_eq_zero_iff_zero] at sign
  have whole : c' = ⟨c'.rc, c'.body⟩ := rfl
  rw [live', whole, sign, body, ← zero]

theorem handedOver
    (since : ∀ roots, Held h roots (.addr result :: handles) → Since h roots (taken ++ handles) now)
    (held : Held h roots (.addr result :: handles))
    (freed : ∀ a c, h.cell a = some c → now.cell a = none → now.cell result = none) :
    HandedOver h result taken now := by
  constructor
  · exact (since roots held).shrinks
  · exact fun a c live counts => (since roots held).counted held live counts
  · exact fun a c live zero => uncounted_stays since held live zero
  · exact freed

end Counts

section Runs

variable {rt : Runtime} {h now : LeanHeap} {roots : Nat → Nat} {handles taken : List Ref}
  {a result : Nat} {v : Ref}

theorem leanInc_spares (run : leanInc v h = .returned () now) (b : Nat) (c : Cell HeapObject)
    (live : h.cell b = some c) : ∃ c', now.cell b = some c' := by
  have put : ∀ a d d', h.cell a = some d → ∃ c', (h.put a d').cell b = some c' := by
    intro a d d' at_a
    by_cases here : b = a
    · subst here
      exact ⟨d', Heap.cell_put_same at_a⟩
    · exact ⟨c, (Heap.cell_put_other here).trans live⟩
  cases v with
  | scalar payload =>
    cases run
    exact ⟨c, live⟩
  | addr a =>
    rw [leanInc, leanIncRef] at run
    cases at_a : h.cell a with
    | none =>
      rw [at_a] at run
      cases run
    | some d =>
      rw [at_a] at run
      dsimp only at run
      split at run
      · split at run
        · cases run
          exact put a d _ at_a
        · cases run
      · split at run
        · split at run
          · cases run
            exact put a d _ at_a
          · cases run
        · cases run
          exact ⟨c, live⟩

theorem leanDec_spares (frees : FreesAtZero rt.decRefCold)
    (held : Held h roots (.addr a :: handles))
    (run : leanDec rt.decRefCold (.addr a) h = .returned () now) :
    (∀ b c, h.cell b = some c → ∃ c', now.cell b = some c') ∨ now.cell a = none := by
  have since : Since h roots handles now := by
    have meets := leanDec_since (R := fun _ _ => True) frees (.addr a) h ⟨held, .refl h⟩
    rw [run] at meets
    exact meets
  obtain ⟨c, live⟩ := held.alive (List.mem_cons_self ..)
  have put : ∀ d, now = h.put a d → ∀ b c, h.cell b = some c → ∃ c', now.cell b = some c' := by
    rintro d rfl b c' at_b
    by_cases here : b = a
    · subst here
      exact ⟨d, Heap.cell_put_same at_b⟩
    · exact ⟨c', (Heap.cell_put_other here).trans at_b⟩
  by_cases last : c.rc.natAbs = 1
  · right
    cases stays : now.cell a with
    | none => rfl
    | some c' =>
      have counts : c.rc ≠ 0 := by omega
      have counts' := still_counted since.shrinks live counts stays
      have before := held.counted a c live counts
      have after := since.held.counted a c' stays counts'
      have split := inRefs_gone HeapObject.addresses since.shrinks a
      rw [List.count_cons_self] at before
      omega
  · left
    rw [leanDec] at run
    dsimp only at run
    rw [leanDecRef, live] at run
    dsimp only at run
    by_cases shared : 1 < c.rc
    · rw [if_pos shared] at run
      cases run
      exact put _ rfl
    · rw [if_neg shared] at run
      by_cases zero : c.rc = 0
      · have uncounted : ¬ c.rc ≠ 0 := fun counts => counts zero
        rw [if_neg uncounted] at run
        cases run
        exact fun b c at_b => ⟨c, at_b⟩
      · rw [if_pos zero, frees.counted h a c live (by omega)] at run
        cases run
        exact put _ rfl

end Runs

section Reading

variable {h : LeanHeap} {r : Ref} {view : View Ref} {a tag : Nat} {fields : List Ref}
  {scalars : List UInt8}

theorem lookAt_seen (seen : h.view r = some view) : lookAt r h = .returned view h := by
  rw [lookAt, seen]

theorem leanPtrTag_seen (seen : h.view (.addr a) = some view) :
    leanPtrTag (.addr a) h = .returned view.objTag h := by
  simp only [leanPtrTag, bind_apply, lookAt_seen seen, Outcome.andThen_returned, pure_apply]

theorem ctorGet0_seen {payload : Ref}
    (seen : h.view r = some (.ctor tag (payload :: fields) scalars)) :
    ctorGet0 r h = .returned payload h := by
  simp only [ctorGet0, bind_apply, lookAt_seen seen, Outcome.andThen_returned, pure_apply]

theorem fromUtf8Lossy_text (text : String) : fromUtf8Lossy text.toByteArray = text :=
  PathBuf.pathString_ofString text

theorem readLastStringField_text {last : Ref} {text : String}
    (seen : h.view r = some (.ctor tag (fields ++ [last]) scalars))
    (encoded : TextEncoded h last text) :
    readLastStringField r h = .returned (some text) h := by
  simp only [readLastStringField, bind_apply, lookAt_seen seen, Outcome.andThen_returned,
    List.getLast?_append, List.getLast?_singleton, Option.some_or, lookAt_seen encoded, pure_apply,
    fromUtf8Lossy_text]

theorem last_encoded {slots : List Ref} {first : List IoField} {text : String}
    (encoded : List.Forall₂ (IoField.Encoded h) slots (first ++ [.text text])) :
    ∃ rest last, slots = rest ++ [last] ∧ TextEncoded h last text := by
  induction first generalizing slots with
  | nil =>
    cases encoded with
    | cons last rest =>
      cases rest
      exact ⟨[], _, rfl, last⟩
  | cons field first ih =>
    cases encoded with
    | @cons slot _ slots _ _ parts =>
      obtain ⟨rest, last, rfl, ends⟩ := ih parts
      exact ⟨slot :: rest, last, rfl, ends⟩

theorem classifyIoError_text {layout : IoLayout} {first : List IoField} {text : String}
    (fields : layout.objects = first ++ [.text text]) (encoded : layout.Encoded h r) :
    classifyIoError r h = .returned (kindTable[layout.index]?.getD .other, text) h := by
  have some_field : ¬ (layout.objects = [] ∧ layout.scalars = []) := by
    rintro ⟨none, -⟩
    rw [fields] at none
    simp at none
  rw [IoLayout.Encoded, if_neg some_field, fields] at encoded
  obtain ⟨slots, seen, parts⟩ := encoded
  obtain ⟨rest, last, rfl, ends⟩ := last_encoded parts
  cases r with
  | scalar payload => cases seen
  | addr a =>
    simp only [classifyIoError, bind_apply, leanPtrTag_seen seen, Outcome.andThen_returned,
      readLastStringField_text seen ends, pure_apply, View.objTag, Option.getD_some]

theorem classifyIoError_fieldless {layout : IoLayout} (objects : layout.objects = [])
    (scalars : layout.scalars = []) (encoded : layout.Encoded h r) :
    classifyIoError r h =
      .returned (.other, "<Lean IO error: scalar-encoded constructor>") h := by
  rw [IoLayout.Encoded, if_pos ⟨objects, scalars⟩] at encoded
  cases r with
  | scalar payload => rfl
  | addr a =>
    obtain ⟨c, live, same⟩ := Option.map_eq_some_iff.mp encoded
    have onHeap := c.body.onHeap
    rw [same] at onHeap
    cases onHeap

end Reading

namespace IoError

theorem details_last (e : IoError) (text : String) (details : e.details? = some text) :
    ∃ first, e.layout.objects = first ++ [.text text] := by
  cases e <;> cases details
  case alreadyExists filename _ | invalidArgument filename _ | permissionDenied filename _
    | resourceExhausted filename _ | inappropriateType filename _ | noSuchThing filename _ =>
    exact ⟨[.optionalText filename], rfl⟩
  case interrupted filename _ | noFileOrDirectory filename _ =>
    exact ⟨[.text filename], rfl⟩
  all_goals exact ⟨[], rfl⟩

theorem kindTable_index (e : IoError) : kindTable[e.layout.index]? = some e.kind := by
  cases e <;> rfl

theorem details_none {e : IoError} (none : e.details? = none) : e = unexpectedEof := by
  cases e <;> first | rfl | cases none

end IoError

namespace IoResult

def taken : IoResult → List Ref
  | ok value => [value]
  | error _ => []

/-- The kind and the bounded detail string of the error, or a placeholder for the string. -/
def Told : IoResult → Except LeanException Ref → Prop
  | ok value, out => out = .ok value
  | error failure, out => ∃ e, out = .error e ∧ e.kind = failure.kind ∧
      match failure.details? with
      | some details => e.message = boundMessage details
      | none => ∃ what, e.message = "<Lean IO error: " ++ what ++ ">"

end IoResult

/-- The result is told as it is and given up for what is in it. Only a value whose count has no
room for one more reference stops this. -/
structure DecodesFaithfully (rt : Runtime) (h : LeanHeap) (result : Nat) (io : IoResult) :
    Prop where
  meets : (decodeIo rt (.addr result) h).Meets
    (fun out now => io.Told out ∧ HandedOver h result io.taken now) (fun _ _ => False)
  stops : ∀ now, decodeIo rt (.addr result) h = .waiting now →
    ∃ v c, io.taken = [.addr v] ∧ h.cell v = some c ∧ maxCount ≤ c.rc.natAbs

section Decode

variable {rt : Runtime} {h : LeanHeap} {roots : Nat → Nat} {handles : List Ref} {result : Nat}
  {io : IoResult}

theorem decodeIo_ok {value : Ref} {rest : List Ref}
    (seen : h.view (.addr result) = some (.ctor 0 (value :: rest) [])) :
    decodeIo rt (.addr result) h =
      (do
        leanInc value
        leanDec rt.decRefCold (.addr result)
        pure (.ok value) : HeapProc _) h := by
  simp only [decodeIo, leanIoResultIsOk, leanIoResultTakeValue, bind_apply, leanPtrTag_seen seen,
    ctorGet0_seen seen, Outcome.andThen_returned, pure_apply, View.objTag, beq_self_eq_true,
    if_true]
  cases leanInc value h with
  | returned _ now =>
    simp only [Outcome.andThen_returned, bind_apply]
    cases leanDec rt.decRefCold (.addr result) now <;> rfl
  | raised e now => rfl
  | waiting now => rfl

theorem decodeIo_error {payload : Ref} {rest : List Ref} {kind : LeanExceptionKind}
    {message : String} (seen : h.view (.addr result) = some (.ctor 1 (payload :: rest) []))
    (classified : classifyIoError payload h = .returned (kind, message) h) :
    decodeIo rt (.addr result) h =
      (do leanDec rt.decRefCold (.addr result); pure (.error (leanException kind message)) :
        HeapProc _) h := by
  have failed : ((1 : Nat) == 0) = false := rfl
  simp only [decodeIo, leanIoResultIsOk, bind_apply, leanPtrTag_seen seen, ctorGet0_seen seen,
    classified, Outcome.andThen_returned, pure_apply, View.objTag, failed, Bool.false_eq_true,
    if_false]

theorem decodeIo_ok_faithful (frees : FreesAtZero rt.decRefCold) {value : Ref} {rest : List Ref}
    (held : Held h roots (.addr result :: handles))
    (seen : h.view (.addr result) = some (.ctor 0 (value :: rest) [])) :
    DecodesFaithfully rt h result (.ok value) := by
  have counts : ∀ roots, Held h roots (.addr result :: handles) →
      (leanInc value h).Meets (fun _ => Since h roots (value :: .addr result :: handles))
        (fun _ _ => False) := fun roots held =>
    leanInc_slot seen (List.mem_cons_self ..) (List.mem_cons_self ..) h ⟨held, .refl h⟩
  constructor
  · rw [decodeIo_ok seen, bind_apply]
    cases inc : leanInc value h with
    | waiting now => trivial
    | raised e now =>
      have never := counts roots held
      rw [inc] at never
      exact never
    | returned _ h₁ =>
      rw [inc] at counts
      have between : ∀ roots, Held h roots (.addr result :: handles) →
          Since h roots (.addr result :: value :: handles) h₁ := fun roots held =>
        (counts roots held).perm (List.Perm.swap ..)
      have drops : ∀ roots, Held h roots (.addr result :: handles) →
          (leanDec rt.decRefCold (.addr result) h₁).Meets
            (fun _ => Since h roots (value :: handles)) (fun _ _ => False) := fun roots held =>
        leanDec_since frees (.addr result) h₁ (between roots held)
      rw [Outcome.andThen_returned, bind_apply]
      cases dec : leanDec rt.decRefCold (.addr result) h₁ with
      | waiting now => trivial
      | raised e now =>
        have never := drops roots held
        rw [dec] at never
        exact never
      | returned _ now =>
        rw [dec] at drops
        refine ⟨rfl, handedOver drops held ?_⟩
        intro a c live freed
        rcases leanDec_spares frees (between roots held).held dec with stays | gone
        · obtain ⟨c₁, live₁⟩ := leanInc_spares inc a c live
          obtain ⟨c', live'⟩ := stays a c₁ live₁
          rw [freed] at live'
          cases live'
        · exact gone
  · intro now waits
    rw [decodeIo_ok seen, bind_apply] at waits
    cases inc : leanInc value h with
    | waiting h₁ =>
      obtain ⟨-, v, c, rfl, live, full⟩ := leanInc_stops inc
      exact ⟨v, c, rfl, live, full⟩
    | raised e h₁ =>
      rw [inc] at waits
      cases waits
    | returned _ h₁ =>
      rw [inc, Outcome.andThen_returned] at waits
      have drops : Ends (leanDec rt.decRefCold (.addr result)) := leanDec_ends _
      have ends := drops.bind (fun _ => Ends.pure (.ok value : Except LeanException Ref)) h₁
      rw [waits] at ends
      cases ends

theorem decodeIo_error_drops (frees : FreesAtZero rt.decRefCold) {payload : Ref} {rest : List Ref}
    {kind : LeanExceptionKind} {message : String} (held : Held h roots (.addr result :: handles))
    (seen : h.view (.addr result) = some (.ctor 1 (payload :: rest) []))
    (classified : classifyIoError payload h = .returned (kind, message) h) :
    ∃ now, decodeIo rt (.addr result) h =
      .returned (.error (leanException kind message)) now ∧ HandedOver h result [] now := by
  rw [decodeIo_error seen classified, bind_apply]
  have drops : ∀ roots, Held h roots (.addr result :: handles) →
      (leanDec rt.decRefCold (.addr result) h).Meets (fun _ => Since h roots handles)
        (fun _ _ => False) := fun roots held =>
    leanDec_since frees (.addr result) h ⟨held, .refl h⟩
  cases dec : leanDec rt.decRefCold (.addr result) h with
  | waiting now =>
    have drop_ends : Ends (leanDec rt.decRefCold (.addr result)) := leanDec_ends _
    have ends := drop_ends h
    rw [dec] at ends
    cases ends
  | raised e now =>
    have never := drops roots held
    rw [dec] at never
    exact never.elim
  | returned _ now =>
    rw [dec] at drops
    refine ⟨now, rfl, handedOver drops held ?_⟩
    intro a c live freed
    rcases leanDec_spares frees held dec with stays | gone
    · obtain ⟨c', live'⟩ := stays a c live
      rw [freed] at live'
      cases live'
    · exact gone

theorem decodeIo_error_faithful (frees : FreesAtZero rt.decRefCold) {failure : IoError}
    (held : Held h roots (.addr result :: handles))
    (encoded : (IoResult.error failure).Encoded h result) (fields : failure ≠ .unexpectedEof) :
    DecodesFaithfully rt h result (.error failure) := by
  obtain ⟨payload, rest, seen, layout⟩ := encoded
  cases details : failure.details? with
  | none => exact absurd (IoError.details_none details) fields
  | some text =>
    obtain ⟨first, objects⟩ := failure.details_last text details
    have classified := classifyIoError_text objects layout
    rw [failure.kindTable_index, Option.getD_some] at classified
    obtain ⟨now, run, handed⟩ := decodeIo_error_drops frees held seen classified
    constructor
    · rw [run]
      refine ⟨⟨_, rfl, rfl, ?_⟩, handed⟩
      rw [details]
      rfl
    · intro now' waits
      rw [run] at waits
      cases waits

theorem unexpectedEof_told (frees : FreesAtZero rt.decRefCold)
    (held : Held h roots (.addr result :: handles))
    (encoded : (IoResult.error .unexpectedEof).Encoded h result) :
    ∃ e now, decodeIo rt (.addr result) h = .returned (.error e) now ∧ e.kind = .other ∧
      HandedOver h result [] now := by
  obtain ⟨payload, rest, seen, layout⟩ := encoded
  have classified := classifyIoError_fieldless rfl rfl layout
  obtain ⟨now, run, handed⟩ := decodeIo_error_drops frees held seen classified
  exact ⟨_, now, run, rfl, handed⟩

theorem unexpectedEof_unfaithful (frees : FreesAtZero rt.decRefCold)
    (held : Held h roots (.addr result :: handles))
    (encoded : (IoResult.error .unexpectedEof).Encoded h result) :
    ¬ DecodesFaithfully rt h result (.error .unexpectedEof) := by
  intro faithful
  obtain ⟨e, now, run, other, -⟩ := unexpectedEof_told frees held encoded
  have meets := faithful.meets
  rw [run] at meets
  obtain ⟨⟨e', same, kind, -⟩, -⟩ := meets
  cases same
  rw [other] at kind
  cases kind

end Decode

/-- A result is decoded faithfully, its value or its error with the counts, unless it is the error
without fields. -/
theorem decodeIo_faithful_iff (rt : Runtime) (frees : FreesAtZero rt.decRefCold) (h : LeanHeap)
    (roots : Nat → Nat) (handles : List Ref) (result : Nat) (io : IoResult)
    (held : Held h roots (.addr result :: handles)) (encoded : io.Encoded h result) :
    DecodesFaithfully rt h result io ↔ io ≠ .error .unexpectedEof := by
  constructor
  · rintro faithful rfl
    exact unexpectedEof_unfaithful frees held encoded faithful
  · intro fields
    cases io with
    | ok value =>
      obtain ⟨rest, seen⟩ := encoded
      exact decodeIo_ok_faithful frees held seen
    | error failure =>
      have some_field : failure ≠ .unexpectedEof := by
        rintro rfl
        exact fields rfl
      exact decodeIo_error_faithful frees held encoded some_field

def missingHeap : LeanHeap :=
  [some ⟨1, ⟨.ctor 1 [.addr 1] [], rfl⟩⟩,
    some ⟨1, ⟨.ctor 11 [.addr 2, .addr 3] [2, 0, 0, 0], rfl⟩⟩,
    some ⟨1, ⟨.string "lakefile".toByteArray, rfl⟩⟩,
    some ⟨1, ⟨.string "not found".toByteArray, rfl⟩⟩]

theorem missingHeap_held : Held missingHeap (fun _ => 0) [.addr 0] := by
  constructor
  · intro a c live counts
    match a with
    | 0 | 1 | 2 | 3 =>
      cases live
      decide
    | a + 4 => cases live
  · intro a gone
    match a with
    | 0 | 1 | 2 | 3 => cases gone
    | a + 4 =>
      simp [inRefs, missingHeap, cellRefs, HeapObject.addresses, View.slots, Ref.address?]

theorem missingHeap_encoded :
    (IoResult.error (.noFileOrDirectory "lakefile" 2 "not found")).Encoded missingHeap 0 := by
  refine ⟨.addr 1, [], rfl, ?_⟩
  rw [IoLayout.Encoded, if_neg (by rintro ⟨none, -⟩; cases none)]
  exact ⟨[.addr 2, .addr 3], rfl, .cons rfl (.cons rfl .nil)⟩

theorem missing_decodes_faithfully :
    DecodesFaithfully plainRuntime missingHeap 0
        (.error (.noFileOrDirectory "lakefile" 2 "not found")) ↔
      IoResult.error (.noFileOrDirectory "lakefile" 2 "not found") ≠ .error .unexpectedEof :=
  decodeIo_faithful_iff plainRuntime releaseCold_frees missingHeap (fun _ => 0) [] 0 _
    missingHeap_held missingHeap_encoded

def eofHeap : LeanHeap := [some ⟨1, ⟨.ctor 1 [.scalar 17] [], rfl⟩⟩]

theorem eofHeap_held : Held eofHeap (fun _ => 0) [.addr 0] := by
  constructor
  · intro a c live counts
    match a with
    | 0 =>
      cases live
      decide
    | a + 1 => cases live
  · intro a gone
    match a with
    | 0 => cases gone
    | a + 1 =>
      simp [inRefs, eofHeap, cellRefs, HeapObject.addresses, View.slots]
      rfl

theorem eofHeap_encoded : (IoResult.error .unexpectedEof).Encoded eofHeap 0 := by
  refine ⟨.scalar 17, [], rfl, ?_⟩
  rw [IoLayout.Encoded, if_pos ⟨rfl, rfl⟩]
  rfl

theorem unexpectedEof_is_other :
    (∃ e now, decodeIo plainRuntime (.addr 0) eofHeap = .returned (.error e) now ∧
        e.kind = .other) ∧
      Held eofHeap (fun _ => 0) [.addr 0] ∧
      (IoResult.error .unexpectedEof).Encoded eofHeap 0 ∧
      ¬ DecodesFaithfully plainRuntime eofHeap 0 (.error .unexpectedEof) := by
  refine ⟨?_, eofHeap_held, eofHeap_encoded,
    unexpectedEof_unfaithful releaseCold_frees eofHeap_held eofHeap_encoded⟩
  have frees : FreesAtZero plainRuntime.decRefCold := releaseCold_frees
  obtain ⟨e, now, run, other, -⟩ := unexpectedEof_told frees eofHeap_held eofHeap_encoded
  exact ⟨e, now, run, other⟩

end LeanRs
