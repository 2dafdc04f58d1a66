import HostParsing.Handle
/-!
# Faults

Why a call on a buffer, a registry or a session is refused. A fault is a cause;
`kind` sorts causes into the six kinds a caller may tell apart, `message` is the
text shown for it, and only a session that is busy with a round is worth
another try (`isRetryable_iff`).
-/

namespace HostParsing

/-- What an index was meant to fall into. -/
inductive Extent
  /-- The byte array a buffer is made from. -/
  | byteArray
  /-- The bytes of a buffer. -/
  | bufferBytes
  /-- The code units of a buffer. -/
  | buffer
  /-- The code units of a text that is appended. -/
  | sourceText
deriving DecidableEq, Repr

/-- How an extent is named in a message. -/
def Extent.describe : Extent → String
  | .byteArray => "byte array"
  | .bufferBytes => "buffer bytes"
  | .buffer => "buffer"
  | .sourceText => "source text"

/-- Why a call was refused. -/
inductive Fault
  /-- Bytes that do not make up whole code units. -/
  | oddByteCount (count : Nat)
  /-- A range of bytes whose end is not a 64-bit word. -/
  | byteRangeOverflow
  /-- A range of a text whose end is not a 64-bit word. -/
  | textRangeOverflow
  /-- A range that ends before it starts. -/
  | invertedRange (first last : Nat)
  /-- A range of bytes that is not a whole number of code units long. -/
  | splitUnit (first last : Nat)
  /-- A word that packs no handle. -/
  | notAHandle (raw : UInt64)
  /-- An index past the end of what it points into. -/
  | outOfBounds (extent : Extent) (index length : Nat)
  /-- A handle that was released, or that was never issued. -/
  | staleHandle (handle : Handle)
  /-- No slot is free and no further one can be numbered. -/
  | registryFull (slots : Nat)
  /-- The session was destroyed. -/
  | sessionDestroyed
  /-- A parse without a round to run in. -/
  | noRound
  /-- The end of a round when none is active. -/
  | noRoundToEnd
  /-- A session cannot be destroyed during a round. -/
  | roundActive
  /-- Another round is active. -/
  | parseInProgress
  /-- The engine does not take the grammar. -/
  | grammarRejected (detail : String)
  /-- Text with a surrogate that is not part of a pair. -/
  | unpairedSurrogate
deriving DecidableEq, Repr

namespace Fault

/-- The kinds of fault that a caller can tell apart. -/
inductive Kind
  | invalidArgument
  | outOfBounds
  | illegalState
  | parseInProgress
  | language
  | encoding
deriving DecidableEq, Repr

/-- The kind of a fault. -/
def kind : Fault → Kind
  | .oddByteCount _ | .byteRangeOverflow | .textRangeOverflow | .invertedRange _ _
  | .splitUnit _ _ | .notAHandle _ => .invalidArgument
  | .outOfBounds _ _ _ => .outOfBounds
  | .staleHandle _ | .registryFull _ | .sessionDestroyed | .noRound | .noRoundToEnd
  | .roundActive => .illegalState
  | .parseInProgress => .parseInProgress
  | .grammarRejected _ => .language
  | .unpairedSurrogate => .encoding

/-- Whether the same call may succeed later. -/
def isRetryable (f : Fault) : Bool :=
  f.kind = .parseInProgress

/-- A number in lower-case hexadecimal. -/
def hexadecimal (n : Nat) : String :=
  "0x" ++ String.ofList (Nat.toDigits 16 n)

/-- What is said of a fault after its kind. -/
def detail : Fault → String
  | .oddByteCount count =>
    "UTF-16 input must have an even byte count, got " ++ toString count
  | .byteRangeOverflow => "byte range overflows"
  | .textRangeOverflow => "text range overflows"
  | .invertedRange first last =>
    "range start " ++ toString first ++ " is greater than end " ++ toString last
  | .splitUnit first last =>
    "byte range " ++ toString first ++ ".." ++ toString last ++ " does not span whole code units"
  | .notAHandle raw => hexadecimal raw.toNat ++ " is not a string handle"
  | .outOfBounds extent index length =>
    "Index " ++ toString index ++ " out of bounds for " ++ extent.describe ++ " of length "
      ++ toString length
  | .staleHandle handle => handle.describe ++ " was released or never issued"
  | .registryFull slots => "string registry is full (" ++ toString slots ++ " slots)"
  | .sessionDestroyed => "parse session was destroyed"
  | .noRound => "parse called outside of a round"
  | .noRoundToEnd => "end_round called with no active round"
  | .roundActive => "cannot destroy a session while a parse is in progress"
  | .parseInProgress => "A parse is already in progress on this session"
  | .grammarRejected detail => detail
  | .unpairedSurrogate => "invalid utf-16: lone surrogate found"

/-- The text of a fault. A range that is missed and a busy session are told
without a heading. -/
def message (f : Fault) : String :=
  match f.kind with
  | .invalidArgument => "Invalid argument: " ++ f.detail
  | .illegalState => "Illegal state: " ++ f.detail
  | .language => "Language error: " ++ f.detail
  | .encoding => "Encoding error: " ++ f.detail
  | .outOfBounds | .parseInProgress => f.detail

theorem isRetryable_iff {f : Fault} : f.isRetryable = true ↔ f = .parseInProgress := by
  cases f <;> simp [isRetryable, kind]

end Fault
end HostParsing
