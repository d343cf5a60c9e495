import MsFat.Apps.Script

/-!
# Lines that are made of words

A line is put together from words with tabs between them, and `strtok` takes it
apart again; a number is written in decimal digits, and `atoi` reads it again.
-/

namespace MsFat

/-! ## Words -/

/-- A word that can stand between two tabs of a line. -/
structure Word where
  text : CString
  nonempty : text.bytes ≠ []
  noTab : 9 ∉ text.bytes
  oneLine : 10 ∉ text.bytes

/-- The bytes of words with tabs between them. -/
def joined (words : List Word) : List UInt8 :=
  [9].intercalate (words.map fun word => word.text.bytes)

theorem joined_cons_cons (word next : Word) (rest : List Word) :
    joined (word :: next :: rest) =
      word.text.bytes ++ 9 :: joined (next :: rest) := by
  simp [joined, List.intercalate_cons_cons]

/-- A line is not longer than its words with a tab behind each of them. -/
theorem joined_length_le (words : List Word) :
    (joined words).length ≤
      (words.map fun word => word.text.length + 1).sum := by
  induction words with
  | nil => simp [joined]
  | cons word rest inductionHypothesis =>
      cases rest with
      | nil => simp [joined, CString.length]
      | cons next others =>
          rw [joined_cons_cons, List.map_cons, List.sum_cons, List.length_append,
            List.length_cons]
          change word.text.length + _ ≤ _
          omega

/-- What all bytes of all words satisfy, and the tab, all bytes of the line
do. -/
theorem forall_mem_joined
    {holds : UInt8 → Prop}
    (tab : holds 9)
    {words : List Word}
    (inWords : ∀ word ∈ words, ∀ byte ∈ word.text.bytes, holds byte) :
    ∀ byte ∈ joined words, holds byte := by
  induction words with
  | nil => simp [joined]
  | cons word rest inductionHypothesis =>
      have ofRest := inductionHypothesis fun word member =>
        inWords word (List.mem_cons_of_mem _ member)
      have ofWord := inWords word List.mem_cons_self
      cases rest with
      | nil => simpa [joined] using ofWord
      | cons next others =>
          intro byte member
          rw [joined_cons_cons, List.mem_append, List.mem_cons] at member
          obtain inWord | rfl | inRest := member
          · exact ofWord byte inWord
          · exact tab
          · exact ofRest byte inRest

/-- The line of these words. -/
def ScriptLine.ofWords
    (words : List Word)
    (short : (joined words).length < 1024) : ScriptLine where
  text :=
    { bytes := joined words
      nonzero := forall_mem_joined (by decide) fun word _ => word.text.nonzero }
  oneLine := by
    intro member
    have noNewline : ∀ byte ∈ joined words, byte ≠ 10 := by
      refine forall_mem_joined (by decide) fun word _ byte isByte => ?_
      rintro rfl
      exact word.oneLine isByte
    exact noNewline 10 member rfl
  short := short

/-- A string is its own bytes up to the first NUL. -/
theorem CString.ofBytes_bytes (string : CString) :
    CString.ofBytes string.bytes = string := by
  have nonzero := string.nonzero
  obtain ⟨bytes, _⟩ := string
  unfold ofBytes
  congr
  exact List.takeWhile_eq_self_iff.mpr (by simpa using nonzero)

/-- `strtok` finds the words that a line is made of. -/
theorem tokens_ofWords
    {words : List Word}
    (short : (joined words).length < 1024)
    (some : words ≠ []) :
    tokens (ScriptLine.ofWords words short).text =
      words.map Word.text := by
  have pieces : (joined words).splitOnP (fun byte => byte == 9) =
      words.map fun word => word.text.bytes := by
    refine List.splitOn_intercalate 9 ?_ (by simpa using some)
    simpa using fun word _ => word.noTab
  have noneEmpty : ∀ bytes ∈ words.map fun word => word.text.bytes,
      (!bytes.isEmpty) = true := by
    simpa using fun word _ => word.nonempty
  unfold tokens
  change List.map _ (List.filter _ ((joined words).splitOnP _)) = _
  rw [pieces, List.filter_eq_self.mpr noneEmpty, List.map_map]
  exact List.map_congr_left fun word _ => word.text.ofBytes_bytes

/-- A word of the source. -/
def Word.ofSource
    (word : List Char)
    (valid : (!word.isEmpty && (ascii word).all fun byte =>
      byte != 0 && byte != 9 && byte != 10) = true) : Word :=
  have isValid : word ≠ [] ∧
      ∀ byte ∈ ascii word, byte ≠ 0 ∧ byte ≠ 9 ∧ byte ≠ 10 := by
    simpa [and_assoc] using valid
  { text :=
      { bytes := ascii word
        nonzero := fun byte member => (isValid.2 byte member).1 }
    nonempty := fun empty => isValid.1 (List.map_eq_nil_iff.mp empty)
    noTab := fun member => (isValid.2 9 member).2.1 rfl
    oneLine := fun member => (isValid.2 10 member).2.2 rfl }

def mountWord : Word := .ofSource ['M', 'O', 'U', 'N', 'T'] (by decide)

def umountWord : Word := .ofSource ['U', 'M', 'O', 'U', 'N', 'T'] (by decide)

def createWord : Word := .ofSource ['C', 'R', 'E', 'A', 'T', 'E'] (by decide)

def openWord : Word := .ofSource ['O', 'P', 'E', 'N'] (by decide)

def closeWord : Word := .ofSource ['C', 'L', 'O', 'S', 'E'] (by decide)

def seekWord : Word := .ofSource ['S', 'E', 'E', 'K'] (by decide)

def writeWord : Word := .ofSource ['W', 'R', 'I', 'T', 'E'] (by decide)

def readWord : Word := .ofSource ['R', 'E', 'A', 'D'] (by decide)

def dataWord : Word := .ofSource ['D', 'A', 'T', 'A'] (by decide)

/-- `MOUNT` -/
def mountLine : ScriptLine :=
  .ofWords [mountWord] (by decide)

/-! ## Numbers -/

/-- `%d` -/
def decimal (number : Nat) : List UInt8 :=
  ascii (Nat.toDigits 10 number)

/-- The byte of a digit, between `0` and `9`. -/
theorem ascii_digit
    {digit : Char}
    (isDigit : digit.isDigit = true) :
    48 ≤ UInt8.ofNat digit.toNat ∧ UInt8.ofNat digit.toNat ≤ 57 ∧
      (UInt8.ofNat digit.toNat).toNat = digit.toNat := by
  have range : 48 ≤ digit.toNat ∧ digit.toNat ≤ 57 := by
    unfold Char.isDigit at isDigit
    rw [Bool.and_eq_true, decide_eq_true_eq, decide_eq_true_eq] at isDigit
    exact isDigit
  have isByte : (UInt8.ofNat digit.toNat).toNat = digit.toNat :=
    UInt8.toNat_ofNat_of_lt' (by simp only [UInt8.size]; omega)
  refine ⟨?_, ?_, isByte⟩
  · rw [UInt8.le_iff_toNat_le, isByte]
    exact range.1
  · rw [UInt8.le_iff_toNat_le, isByte]
    exact range.2

/-- The digits are read as the number that they stand for. -/
theorem digits_ascii
    {word : List Char}
    (areDigits : ∀ digit ∈ word, digit.isDigit = true)
    (value : Nat) :
    digits value (ascii word) = Nat.ofDigitChars 10 word value := by
  induction word generalizing value with
  | nil => simp [ascii, digits]
  | cons digit rest inductionHypothesis =>
      obtain ⟨lower, upper, isByte⟩ := ascii_digit
        (areDigits digit List.mem_cons_self)
      rw [Nat.ofDigitChars_cons, ← inductionHypothesis
        fun digit member => areDigits digit (List.mem_cons_of_mem _ member)]
      have reads : digits value (UInt8.ofNat digit.toNat :: ascii rest) =
          digits (10 * value + ((UInt8.ofNat digit.toNat).toNat - 48))
            (ascii rest) :=
        if_pos ⟨lower, upper⟩
      rw [isByte] at reads
      exact reads

theorem decimal_digits
    {number : Nat}
    {byte : UInt8}
    (member : byte ∈ decimal number) :
    48 ≤ byte ∧ byte ≤ 57 := by
  obtain ⟨digit, isDigit, rfl⟩ := List.mem_map.mp member
  have digitOk := ascii_digit
    (Nat.isDigit_of_mem_toDigits (by decide) (by decide) isDigit)
  exact ⟨digitOk.1, digitOk.2.1⟩

/-- A number as a word. -/
def Word.decimal (number : Nat) : Word where
  text :=
    { bytes := MsFat.decimal number
      nonzero := by
        rintro byte member rfl
        exact absurd (decimal_digits member).1 (by decide) }
  nonempty := by
    unfold MsFat.decimal ascii
    simp
  noTab := fun member => absurd (decimal_digits member).1 (by decide)
  oneLine := fun member => absurd (decimal_digits member).1 (by decide)

/-- `SEEK 0` -/
def rewindLine : ScriptLine :=
  .ofWords [seekWord, .decimal 0] (by decide)

/-- `atoi` reads the number that has been written. -/
theorem atoi_decimal
    {number : Nat}
    (small : number < 2 ^ 31) :
    atoi (Word.decimal number).text = number := by
  have isNumber : digits 0 (decimal number) = number := by
    unfold decimal
    rw [digits_ascii fun digit => Nat.isDigit_of_mem_toDigits (by decide)
      (by decide), Nat.ofDigitChars_ten_toDigits]
  have noSpace : (decimal number).dropWhile (fun byte =>
      byte == 32 || (9 ≤ byte && byte ≤ 13)) = decimal number := by
    rw [List.dropWhile_eq_self_iff]
    intro positive isSpace
    have lower := (decimal_digits (List.getElem_mem positive)).1
    generalize (decimal number)[0] = byte at isSpace lower
    simp only [Bool.or_eq_true, beq_iff_eq, Bool.and_eq_true,
      decide_eq_true_eq] at isSpace
    obtain rfl | ⟨_, upper⟩ := isSpace
    · exact absurd lower (by decide)
    · exact absurd (UInt8.le_trans lower upper) (by decide)
  have noSign : ∀ sign, sign < 48 → (decimal number).head? ≠ some sign := by
    rintro sign less isHead
    have lower := (decimal_digits (List.mem_of_mem_head? isHead)).1
    exact absurd lower (UInt8.not_le.mpr less)
  have isText : (Word.decimal number).text.bytes = decimal number := rfl
  unfold atoi
  dsimp only
  rw [isText, noSpace, if_neg (noSign 45 (by decide)),
    if_neg (noSign 43 (by decide)), isNumber, min_eq_left (by omega),
    int32_of_range (by omega) (by omega)]

end MsFat
