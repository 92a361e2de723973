import AppScaffold.Script.Anchor
import AppScaffold.Text.Split
import Mathlib.Data.List.Basic
import Mathlib.Tactic.Common

/-!
# The octets of a script

A script is stored as octets, from one to four for each character. Only the first octet of a character
can be taken for one of the characters that brackets, quotes, slashes and line ends are, and it is taken
for that character alone; so a search among the octets finds what a search among the characters finds.
-/

namespace AppScaffold.Script

/-- The octets of a text. -/
def encode (cs : List Char) : List UInt8 := cs.flatMap String.utf8EncodeChar

/-- An octet with which no character begins. -/
def isContinuation (b : UInt8) : Bool := 0x80 ≤ b && b < 0xc0

/-- A character that is stored as one octet. -/
def IsAscii (c : Char) : Prop := c.toNat < 128

instance : DecidablePred IsAscii := fun c => inferInstanceAs (Decidable (c.toNat < 128))

@[simp] theorem encode_nil : encode [] = [] := rfl

@[simp] theorem encode_cons (c : Char) (cs : List Char) :
    encode (c :: cs) = String.utf8EncodeChar c ++ encode cs := rfl

@[simp] theorem encode_append (xs ys : List Char) : encode (xs ++ ys) = encode xs ++ encode ys :=
  List.flatMap_append

/-- The number of octets of a text. -/
theorem length_encode (cs : List Char) : (encode cs).length = Text.octets cs := by
  induction cs with
  | nil => rfl
  | cons c cs ih => rw [encode_cons, List.length_append, String.length_utf8EncodeChar, ih, Text.octets]

/-- A place in a script, counted in octets. -/
theorem length_encode_take (cs : List Char) (index : ℕ) :
    (encode (cs.take index)).length = Text.octetOffset cs index := length_encode _

/-- An octet is read as the character with its number. -/
theorem toNat_ofUInt8 (b : UInt8) : (Char.ofUInt8 b).toNat = b.toNat := UInt8.toNat_toUInt32 b

/-- The octet of a character that has only one is read as that character. -/
theorem ofUInt8_ofNat {c : Char} (h : IsAscii c) : Char.ofUInt8 (UInt8.ofNat c.toNat) = c := by
  rw [← Char.toNat_inj, toNat_ofUInt8, UInt8.toNat_ofNat_of_lt']
  exact Nat.lt_trans h (by decide)

/-- A character is stored as one octet that is read as the character, or as octets of which none is read
as a character that is stored as one octet. -/
theorem encodeChar_cases (c : Char) :
    (∃ b, String.utf8EncodeChar c = [b] ∧ Char.ofUInt8 b = c ∧ isContinuation b = false) ∨
    ¬IsAscii c ∧ ∃ b bs, String.utf8EncodeChar c = b :: bs ∧ isContinuation b = false ∧
      ¬IsAscii (Char.ofUInt8 b) ∧ ∀ x ∈ bs, isContinuation x = true := by
  unfold String.utf8EncodeChar
  dsimp only
  split_ifs with hone htwo hthree
  · refine .inl ⟨_, rfl, ofUInt8_ofNat (Nat.lt_succ_of_le hone), ?_⟩
    have hone : c.toNat ≤ 127 := hone
    simp only [isContinuation, Bool.and_eq_false_iff, decide_eq_false_iff_not, UInt8.le_iff_toNat_le]
    simp
    omega
  all_goals
    refine .inr ⟨hone ∘ Nat.le_of_lt_succ, _, _, rfl, ?_, ?_, ?_⟩
    all_goals
      simp only [List.forall_mem_cons, IsAscii, toNat_ofUInt8, isContinuation, Bool.and_eq_true,
        Bool.and_eq_false_iff, decide_eq_true_eq, decide_eq_false_iff_not, UInt8.le_iff_toNat_le,
        UInt8.lt_iff_toNat_lt]
      simp
      try omega

/-- The octets of one character. -/
structure Encodes (c : Char) (b : UInt8) (bs : List UInt8) : Prop where
  /-- They are those of the character. -/
  eq : String.utf8EncodeChar c = b :: bs
  /-- The first can begin a character. -/
  first : isContinuation b = false
  /-- The others cannot. -/
  later : ∀ x ∈ bs, isContinuation x = true
  /-- The first is read as a character of one octet exactly if that is the character. -/
  read : ∀ {a : Char}, IsAscii a → (Char.ofUInt8 b = a ↔ c = a)
  /-- A character of one octet has no more. -/
  single : IsAscii c → bs = []

/-- Every character has octets. -/
theorem exists_encodes (c : Char) : ∃ b bs, Encodes c b bs := by
  rcases encodeChar_cases c with ⟨b, heq, hread, hfirst⟩ | ⟨hc, b, bs, heq, hfirst, hread, hlater⟩
  · exact ⟨b, [], heq, hfirst, by simp, fun _ => by rw [hread], fun _ => rfl⟩
  · refine ⟨b, bs, heq, hfirst, hlater, fun ha => ⟨?_, ?_⟩, fun h => absurd h hc⟩
    · rintro rfl
      exact absurd ha hread
    · rintro rfl
      exact absurd ha hc

/-- An octet with which no character begins is read as no character of one octet. -/
theorem ne_of_isContinuation {b : UInt8} (hb : isContinuation b = true) {a : Char} (ha : IsAscii a) :
    Char.ofUInt8 b ≠ a := by
  rintro rfl
  simp only [isContinuation, Bool.and_eq_true, decide_eq_true_eq, UInt8.le_iff_toNat_le] at hb
  rw [IsAscii, toNat_ofUInt8] at ha
  exact absurd hb.1 (Nat.not_le_of_lt ha)

section Marks

/-- A property that only characters of one octet have. -/
def IsMark (p : Char → Bool) : Prop := ∀ c, p c = true → IsAscii c

/-- Quotes are stored as one octet. -/
theorem isMark_isQuote : IsMark isQuote := by
  intro c hc
  simp only [isQuote, Bool.or_eq_true, beq_iff_eq] at hc
  rcases hc with (rfl | rfl) | rfl <;> decide

/-- Opening brackets are stored as one octet. -/
theorem isMark_isOpening : IsMark isOpening := by
  intro c hc
  simp only [isOpening, Bool.or_eq_true, beq_iff_eq] at hc
  rcases hc with (rfl | rfl) | rfl <;> decide

/-- Closing brackets are stored as one octet. -/
theorem isMark_isClosing : IsMark isClosing := by
  intro c hc
  simp only [isClosing, Bool.or_eq_true, beq_iff_eq] at hc
  rcases hc with (rfl | rfl) | rfl <;> decide

/-- The blanks that are skipped are stored as one octet. -/
theorem isMark_isAsciiBlank : IsMark isAsciiBlank := by
  intro c hc
  simp only [isAsciiBlank, Bool.or_eq_true, beq_iff_eq] at hc
  rcases hc with (((rfl | rfl) | rfl) | rfl) | rfl <;> decide

variable {p : Char → Bool} {c : Char} {b : UInt8} {bs : List UInt8}

/-- The first octet of a character is read as a mark exactly if the character is one. -/
theorem Encodes.mark (h : Encodes c b bs) (hp : IsMark p) : p (Char.ofUInt8 b) = p c := by
  rw [Bool.eq_iff_iff]
  constructor
  · intro hb
    rwa [(h.read (hp _ hb)).mp rfl]
  · intro hc
    rwa [(h.read (hp _ hc)).mpr rfl]

/-- The other octets of a character are read as no mark. -/
theorem mark_of_isContinuation (hb : isContinuation b = true) (hp : IsMark p) :
    p (Char.ofUInt8 b) = false := by
  by_contra htrue
  rw [Bool.not_eq_false] at htrue
  exact ne_of_isContinuation hb (hp _ htrue) rfl

end Marks

end AppScaffold.Script
