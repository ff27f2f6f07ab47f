/-
UTF-8 bytes that may not be well formed, cut into characters and bad pieces.

A bad piece is as long as the bytes still begin a character, and at least one byte: the longest
part that cannot be continued. `lossy` puts one replacement character for each bad piece.
-/

namespace RdmRegistry.Text.Utf8

/-- What is found where a character should begin: one, or bytes that are none. -/
inductive Piece where
  | char (c : Char)
  | bad (bytes : List UInt8)
  deriving DecidableEq

/-- A character that has begun: its bytes so far, the bits they give, the bytes still missing,
and the bounds of the next one. -/
structure Begun where
  bytes : List UInt8
  bits : Nat
  missing : Nat
  low : UInt8
  high : UInt8

/-- What one byte means where a character should begin. -/
inductive Start where
  | ascii (c : Char)
  | lead (begun : Begun)
  | stray

/-- The meaning of a first byte. The bounds of the second byte leave out overlong forms,
surrogates, and code points past the last one. -/
def start (b : UInt8) : Start :=
  if b < 0x80 then .ascii (Char.ofNat b.toNat)
  else if b < 0xC2 then .stray
  else if b < 0xE0 then .lead ⟨[b], b.toNat - 0xC0, 1, 0x80, 0xBF⟩
  else if b = 0xE0 then .lead ⟨[b], 0, 2, 0xA0, 0xBF⟩
  else if b = 0xED then .lead ⟨[b], 0xD, 2, 0x80, 0x9F⟩
  else if b < 0xF0 then .lead ⟨[b], b.toNat - 0xE0, 2, 0x80, 0xBF⟩
  else if b = 0xF0 then .lead ⟨[b], 0, 3, 0x90, 0xBF⟩
  else if b < 0xF4 then .lead ⟨[b], b.toNat - 0xF0, 3, 0x80, 0xBF⟩
  else if b = 0xF4 then .lead ⟨[b], 4, 3, 0x80, 0x8F⟩
  else .stray

def Begun.push (s : Begun) (b : UInt8) : Begun :=
  ⟨s.bytes ++ [b], s.bits * 64 + (b.toNat - 0x80), s.missing - 1, 0x80, 0xBF⟩

/-- Cuts bytes into pieces, given the character that has begun before them, if any. -/
def piecesFrom : Option Begun → List UInt8 → List Piece
  | none, [] => []
  | some s, [] => [.bad s.bytes]
  | none, b :: rest =>
    match start b with
    | .ascii c => .char c :: piecesFrom none rest
    | .lead s => piecesFrom (some s) rest
    | .stray => .bad [b] :: piecesFrom none rest
  | some s, b :: rest =>
    if s.low ≤ b ∧ b ≤ s.high then
      if s.missing = 1 then .char (Char.ofNat (s.push b).bits) :: piecesFrom none rest
      else piecesFrom (some (s.push b)) rest
    else
      .bad s.bytes ::
        match start b with
        | .ascii c => .char c :: piecesFrom none rest
        | .lead s => piecesFrom (some s) rest
        | .stray => .bad [b] :: piecesFrom none rest

/-- The characters and bad pieces of some bytes, in order. -/
def pieces (bytes : List UInt8) : List Piece :=
  piecesFrom none bytes

/-- The text with a replacement character for each bad piece. -/
def lossy (bytes : List UInt8) : String :=
  String.ofList ((pieces bytes).map fun
    | .char c => c
    | .bad _ => '\uFFFD')

def encode (s : String) : List UInt8 :=
  s.toByteArray.data.toList

/-- The text that the bytes spell, if they are well formed. -/
def decode? (bytes : List UInt8) : Option String :=
  String.fromUTF8? ⟨bytes.toArray⟩

theorem encode_eq_flatMap (s : String) : encode s = s.toList.flatMap String.utf8EncodeChar := by
  rw [encode, ← String.utf8Encode_toList]
  simp [List.utf8Encode]

theorem encode_append (s t : String) : encode (s ++ t) = encode s ++ encode t := by
  simp [encode]

theorem encode_inj {s t : String} : encode s = encode t ↔ s = t := by
  constructor
  · intro h
    have h' : s.toByteArray = t.toByteArray :=
      ByteArray.ext (Array.ext' (by simpa [encode] using h))
    exact String.toByteArray_inj.mp h'
  · rintro rfl; rfl

theorem encode_ne_nil {s : String} (h : s ≠ "") : encode s ≠ [] :=
  fun hnil => h (encode_inj.mp hnil)

theorem decode?_encode (s : String) : decode? (encode s) = some s := by
  have h : (⟨(encode s).toArray⟩ : ByteArray) = s.toByteArray := by
    simp [encode]
  unfold decode?
  rw [h]
  simp [String.fromUTF8?, String.isValidUTF8]
  rfl

theorem decode?_eq_some_iff {bytes : List UInt8} {s : String} :
    decode? bytes = some s ↔ bytes = encode s := by
  constructor
  · intro h
    unfold decode? String.fromUTF8? at h
    split at h
    · obtain rfl := Option.some.inj h
      simp [encode, String.fromUTF8]
    · simp at h
  · rintro rfl
    exact decode?_encode s

end RdmRegistry.Text.Utf8
