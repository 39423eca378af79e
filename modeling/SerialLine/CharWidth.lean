/-!
# Character width

Characters of up to eight bits take one byte in a caller's buffer, wider ones two bytes with the low
byte first. `encode` and `decode` go between characters and bytes.
-/
set_option autoImplicit false

namespace SerialLine

/-- How many bytes a character takes. -/
inductive CharWidth where
  | narrow
  | wide
  deriving DecidableEq, Inhabited

namespace CharWidth

def ofBits (bits : UInt8) : CharWidth :=
  if bits ≤ 8 then narrow else wide

def bytes : CharWidth → Nat
  | narrow => 1
  | wide => 2

def lowByte (word : UInt16) : UInt8 := word.toUInt8

def highByte (word : UInt16) : UInt8 := UInt8.ofNat (word.toNat / 256)

def joinBytes (low high : UInt8) : UInt16 :=
  UInt16.ofNat (low.toNat + 256 * high.toNat)

/-- The bytes of one character. A narrow character keeps its low byte only. -/
def encodeWord : CharWidth → UInt16 → List UInt8
  | narrow, word => [lowByte word]
  | wide, word => [lowByte word, highByte word]

/-- The part of a word that its bytes carry. -/
def clip : CharWidth → UInt16 → UInt16
  | narrow, word => (lowByte word).toUInt16
  | wide, word => word

def encode (w : CharWidth) (words : List UInt16) : List UInt8 :=
  words.flatMap w.encodeWord

/-- The whole characters in a sequence of bytes; a half character at the end is left out. -/
def decode : CharWidth → List UInt8 → List UInt16
  | narrow, bs => bs.map UInt8.toUInt16
  | wide, low :: high :: rest => joinBytes low high :: decode wide rest
  | wide, _ => []

theorem bytes_pos (w : CharWidth) : 0 < w.bytes := by
  cases w <;> decide

@[simp] theorem length_encodeWord (w : CharWidth) (word : UInt16) :
    (w.encodeWord word).length = w.bytes := by
  cases w <;> rfl

@[simp] theorem encode_nil (w : CharWidth) : w.encode [] = [] := rfl

@[simp] theorem encode_cons (w : CharWidth) (word : UInt16) (words : List UInt16) :
    w.encode (word :: words) = w.encodeWord word ++ w.encode words := rfl

@[simp] theorem encode_append (w : CharWidth) (xs ys : List UInt16) :
    w.encode (xs ++ ys) = w.encode xs ++ w.encode ys := by
  simp [encode]

@[simp] theorem length_encode (w : CharWidth) (words : List UInt16) :
    (w.encode words).length = words.length * w.bytes := by
  induction words with
  | nil => simp
  | cons word words ih => simp [ih, Nat.add_mul, Nat.add_comm]

theorem joinBytes_split (word : UInt16) : joinBytes (lowByte word) (highByte word) = word := by
  apply UInt16.toNat_inj.1
  have h : word.toNat < 65536 := word.toNat_lt
  simp only [joinBytes, lowByte, highByte, UInt16.toNat_ofNat', UInt16.toNat_toUInt8,
    UInt8.toNat_ofNat']
  omega

/-- Reading back written characters gives the part of each that its bytes carry. -/
theorem decode_encode (w : CharWidth) (words : List UInt16) :
    w.decode (w.encode words) = words.map w.clip := by
  induction words with
  | nil => cases w <;> rfl
  | cons word words ih =>
    cases w with
    | narrow =>
      simp only [decode, encode, List.map_flatMap, List.map_cons] at ih ⊢
      simp [encodeWord, clip]
      simpa [encodeWord] using ih
    | wide => simp [encodeWord, decode, clip, joinBytes_split, ih]

end CharWidth
end SerialLine
