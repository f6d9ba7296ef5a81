import LeanRs.Shims.TacticInsertion
import LeanRs.Worker.Display
import Mathlib.Algebra.Order.Ring.Int

/-! Texts and messages that the shim shortens to a number of bytes before it hands them out. -/
namespace LeanRs

structure RenderState where
  limit : Nat
  out : String
  bytes : Nat
  truncated : Bool

namespace RenderState

def start (limit : Nat) : RenderState := ⟨limit, "", 0, false⟩

end RenderState

def truncationMarker : String := "<truncated>"

def appendBounded (st : RenderState) (s : String) : RenderState :=
  if st.truncated then st
  else
    let b := byteLength s
    if st.bytes + b > st.limit then { st with out := st.out ++ truncationMarker, truncated := true }
    else { st with out := st.out ++ s, bytes := st.bytes + b }

def renderPieces (limit : Nat) (pieces : List String) : RenderState :=
  pieces.foldl appendBounded (.start limit)

def renderStringBoundedWith (limit : Nat) (text : String) : RenderedInfo :=
  if byteLength text ≤ limit then ⟨text, false⟩
  else ⟨(renderPieces limit (text.toList.map Char.toString)).out, true⟩

/-- An expression, by the pieces that the renderer appends for it in turn. -/
def renderExprBoundedWith (limit : Nat) (pieces : List String) : RenderedInfo :=
  let st := renderPieces limit pieces
  ⟨st.out, st.truncated⟩

def renderedBytes (info : RenderedInfo) : Nat := byteLength info.value

theorem byteLength_append (s t : String) : byteLength (s ++ t) = byteLength s + byteLength t := by
  unfold byteLength
  rw [String.toList_append, Text.encode_append, List.length_append]

/-- What has been appended fits, and a marker may stand behind it. -/
structure RenderState.Bounded (st : RenderState) : Prop where
  counted : st.bytes ≤ st.limit
  plain : st.truncated = false → byteLength st.out = st.bytes
  marked : st.truncated = true → byteLength st.out = st.bytes + byteLength truncationMarker

theorem appendBounded_bounded {st : RenderState} (bounded : st.Bounded) (s : String) :
    (appendBounded st s).Bounded ∧ (appendBounded st s).limit = st.limit := by
  unfold appendBounded
  split
  · exact ⟨bounded, rfl⟩
  · rename_i going
    have out := bounded.plain (Bool.eq_false_iff.mpr going)
    dsimp only
    split
    · refine ⟨⟨bounded.counted, nofun, fun _ => ?_⟩, rfl⟩
      rw [byteLength_append, out]
    · rename_i fits
      refine ⟨⟨Nat.le_of_not_gt fits, fun _ => ?_, fun done => absurd done going⟩, rfl⟩
      rw [byteLength_append, out]

theorem renderPieces_bounded (limit : Nat) (pieces : List String) :
    (renderPieces limit pieces).Bounded ∧ (renderPieces limit pieces).limit = limit := by
  unfold renderPieces
  have start : (RenderState.start limit).Bounded := ⟨Nat.zero_le _, fun _ => rfl, nofun⟩
  have same : (RenderState.start limit).limit = limit := rfl
  generalize RenderState.start limit = st at start same
  induction pieces generalizing st with
  | nil => exact ⟨start, same⟩
  | cons piece rest ih =>
    obtain ⟨bounded, kept⟩ := appendBounded_bounded start piece
    exact ih _ bounded (kept.trans same)

/-- The bytes that a rendered text may have under a limit. -/
def withMarker (limit : Nat) : Nat := limit + byteLength truncationMarker

theorem renderPieces_out_le (limit : Nat) (pieces : List String) :
    byteLength (renderPieces limit pieces).out ≤ withMarker limit := by
  obtain ⟨bounded, same⟩ := renderPieces_bounded limit pieces
  have counted := bounded.counted
  unfold withMarker
  cases done : (renderPieces limit pieces).truncated with
  | false =>
    have out := bounded.plain done
    omega
  | true =>
    have out := bounded.marked done
    omega

theorem renderStringBoundedWith_le (limit : Nat) (text : String) :
    renderedBytes (renderStringBoundedWith limit text) ≤ withMarker limit := by
  unfold renderStringBoundedWith renderedBytes
  split
  · rename_i fits
    exact Nat.le_trans fits (Nat.le_add_right _ _)
  · exact renderPieces_out_le limit _

theorem renderExprBoundedWith_le (limit : Nat) (pieces : List String) :
    renderedBytes (renderExprBoundedWith limit pieces) ≤ withMarker limit :=
  renderPieces_out_le limit pieces

namespace Elaboration

inductive Severity where
  | info
  | warning
  | error
  deriving DecidableEq

inductive Truncation where
  | complete
  | truncated
  deriving DecidableEq

structure DiagnosticPos where
  line : Nat
  column : Nat
  endLine : Option Nat
  endColumn : Option Nat
  deriving DecidableEq

structure Diagnostic where
  severity : Severity
  message : String
  position : Option DiagnosticPos
  fileLabel : String
  deriving DecidableEq

structure ElabFailure where
  diagnostics : List Diagnostic
  truncated : Truncation
  deriving DecidableEq

def singleErrorFailure (msg fileLabel : String) : ElabFailure :=
  ⟨[⟨.error, msg, none, fileLabel⟩], .complete⟩

def emptyFailure : ElabFailure := ⟨[], .complete⟩

/-- A message of the elaborator, its body rendered. -/
structure Message where
  severity : Severity
  body : String
  pos : DiagnosticPos
  fileName : String

def Message.diagnostic (fallbackLabel : String) (m : Message) : Diagnostic :=
  ⟨m.severity, m.body, some m.pos, if m.fileName.isEmpty then fallbackLabel else m.fileName⟩

/-- The rest of `serializeMessages`, once `out` has been collected. -/
def serializeFrom (byteLimit : Nat) (fallbackLabel : String) :
    List Message → List Diagnostic → Nat → List Diagnostic × Truncation
  | [], out, _ => (out, .complete)
  | m :: rest, out, bytes =>
    if out.length > 0 ∧ bytes ≥ byteLimit then (out, .truncated)
    else serializeFrom byteLimit fallbackLabel rest (out ++ [m.diagnostic fallbackLabel])
      (bytes + byteLength m.body)

def serializeMessages (msgs : List Message) (byteLimit : Nat) (fallbackLabel : String) :
    List Diagnostic × Truncation :=
  serializeFrom byteLimit fallbackLabel msgs [] 0

def failureFromMessages (msgs : List Message) (diagBytes : Nat) (fileLabel : String) :
    ElabFailure :=
  let (diags, trunc) := serializeMessages msgs diagBytes fileLabel
  ⟨diags, trunc⟩

def messageBytes (diagnostics : List Diagnostic) : Nat :=
  (diagnostics.map fun d => byteLength d.message).sum

theorem serializeFrom_kept {byteLimit : Nat} {fallbackLabel : String} {msgs : List Message}
    {out : List Diagnostic} {bytes : Nat} (counted : bytes = messageBytes out)
    (kept : out.length ≤ 1 ∨ messageBytes out.dropLast < byteLimit) :
    (serializeFrom byteLimit fallbackLabel msgs out bytes).1.length ≤ 1 ∨
      messageBytes (serializeFrom byteLimit fallbackLabel msgs out bytes).1.dropLast <
        byteLimit := by
  induction msgs generalizing out bytes with
  | nil => exact kept
  | cons m rest ih =>
    unfold serializeFrom
    split
    · exact kept
    · rename_i going
      apply ih
      · rw [counted]
        simp [messageBytes, Message.diagnostic]
      · rw [List.dropLast_concat, List.length_append, List.length_singleton, ← counted]
        omega

theorem serializeMessages_kept (msgs : List Message) (byteLimit : Nat) (fallbackLabel : String) :
    (serializeMessages msgs byteLimit fallbackLabel).1.length ≤ 1 ∨
      messageBytes (serializeMessages msgs byteLimit fallbackLabel).1.dropLast < byteLimit :=
  serializeFrom_kept rfl (Or.inl (Nat.zero_le _))

theorem length_serializeFrom {byteLimit : Nat} {fallbackLabel : String} {msgs : List Message}
    {out : List Diagnostic} {bytes : Nat} :
    out.length ≤ (serializeFrom byteLimit fallbackLabel msgs out bytes).1.length := by
  induction msgs generalizing out bytes with
  | nil => exact Nat.le_refl _
  | cons m rest ih =>
    unfold serializeFrom
    split
    · exact Nat.le_refl _
    · have later := @ih (out ++ [m.diagnostic fallbackLabel]) (bytes + byteLength m.body)
      rw [List.length_append] at later
      omega

theorem serializeMessages_ne_nil {msgs : List Message} (some' : msgs ≠ []) (byteLimit : Nat)
    (fallbackLabel : String) : (serializeMessages msgs byteLimit fallbackLabel).1 ≠ [] := by
  cases msgs with
  | nil => exact absurd rfl some'
  | cons m rest =>
    have first := @length_serializeFrom byteLimit fallbackLabel rest [m.diagnostic fallbackLabel]
      (byteLength m.body)
    intro none
    unfold serializeMessages serializeFrom at none
    rw [if_neg (by simp), List.nil_append, Nat.zero_add] at none
    rw [none] at first
    exact absurd first (by simp)

theorem serializeFrom_prefix {byteLimit : Nat} {fallbackLabel : String} {msgs : List Message}
    {out : List Diagnostic} {bytes : Nat} :
    (serializeFrom byteLimit fallbackLabel msgs out bytes).1 <+:
      out ++ msgs.map (·.diagnostic fallbackLabel) := by
  induction msgs generalizing out bytes with
  | nil => exact List.prefix_append out []
  | cons m rest ih =>
    unfold serializeFrom
    split
    · exact List.prefix_append out _
    · have later := @ih (out ++ [m.diagnostic fallbackLabel]) (bytes + byteLength m.body)
      rw [List.append_assoc] at later
      exact later

theorem serializeMessages_prefix (msgs : List Message) (byteLimit : Nat) (fallbackLabel : String) :
    (serializeMessages msgs byteLimit fallbackLabel).1 <+:
      msgs.map (·.diagnostic fallbackLabel) :=
  serializeFrom_prefix

end Elaboration

end LeanRs
