import SnapStore.Json.Document
import SnapStore.Json.Scalar
import SnapStore.Proofs.Decimal.Digits
import Mathlib.Data.List.Forall2

namespace SnapStore.Json

/-!
# Written values are scanned

JSON leaves some choices to whoever writes it: the blanks between tokens, and in a text which characters are
escaped and how.  Whatever the choices, the scanners give back the value that was written, and leave what
follows it.

* `Blank`, `Letter`, `Quoted`, `truth` and `numeral` are the ways to write blanks, a character of a text, a
  text, a truth value and an integer.
* `string_letters`, `text_quoted`, `bool_truth` and `integer_numeral` — what is written so is scanned.
* `quoted_escape` — the texts in reports are one of the ways to write them.
-/

/-! ### Blanks -/

/-- Text that may stand between tokens. -/
def Blank (text : List Char) : Prop := ∀ c ∈ text, c ∈ [' ', '\t', '\n', '\r']

instance (text : List Char) : Decidable (Blank text) := List.decidableBAll _ text

theorem blank_nil : Blank [] := by simp [Blank]

theorem Blank.append {a b : List Char} (ha : Blank a) (hb : Blank b) : Blank (a ++ b) := by
  intro c hc
  rcases List.mem_append.mp hc with h | h
  · exact ha c h
  · exact hb c h

theorem skipSpace_blank {blank : List Char} (h : Blank blank) (rest : List Char) :
    skipSpace (blank ++ rest) = skipSpace rest := by
  refine List.dropWhile_append_of_pos fun c hc => ?_
  have := h c hc
  simp only [List.mem_cons, List.not_mem_nil, or_false] at this
  obtain rfl | rfl | rfl | rfl := this <;> rfl

/-- Behind blanks stands the next token. -/
theorem skipSpace_blank_cons {blank : List Char} (h : Blank blank) {c : Char} (hc : isSpace c = false)
    (rest : List Char) : skipSpace (blank ++ c :: rest) = c :: rest := by
  rw [skipSpace_blank h, skipSpace, List.dropWhile_cons_of_neg (by simp [hc])]

/-! ### Escapes in hexadecimal -/

/-- The ways to write a digit in hexadecimal. -/
def HexDigit (n : Nat) (c : Char) : Prop := n < 16 ∧ (c = Nat.digitChar n ∨ c = (Nat.digitChar n).toUpper)

instance (n : Nat) (c : Char) : Decidable (HexDigit n c) := inferInstanceAs (Decidable (_ ∧ _))

/-- The ways to write a number with four digits in hexadecimal. -/
def FourDigits (n : Nat) (text : List Char) : Prop :=
  List.Forall₂ HexDigit [n / 4096, n / 256 % 16, n / 16 % 16, n % 16] text

instance (n : Nat) (text : List Char) : Decidable (FourDigits n text) :=
  inferInstanceAs (Decidable (List.Forall₂ HexDigit _ _))

theorem HexDigit.hexValue? {n : Nat} {c : Char} (h : HexDigit n c) : Scan.hexValue? c = some n := by
  have hall : ∀ n < 16, Scan.hexValue? (Nat.digitChar n) = some n ∧
      Scan.hexValue? (Nat.digitChar n).toUpper = some n := by decide
  obtain ⟨hn, rfl | rfl⟩ := h
  · exact (hall n hn).1
  · exact (hall n hn).2

theorem FourDigits.hexEscape {n : Nat} {text : List Char} (h : FourDigits n text) (rest : List Char) :
    Scan.hexEscape (text ++ rest) = .ok (n, rest) := by
  simp only [FourDigits, List.forall₂_cons_left_iff, List.forall₂_nil_left_iff] at h
  obtain ⟨a, _, ha, ⟨b, _, hb, ⟨c, _, hc, ⟨d, _, hd, rfl, rfl⟩, rfl⟩, rfl⟩, rfl⟩ := h
  have hlong : ¬ byteLength [a, b, c, d] < 4 := by
    have := Char.utf8Size_pos a
    have := Char.utf8Size_pos b
    have := Char.utf8Size_pos c
    have := Char.utf8Size_pos d
    simp only [byteLength, List.map_cons, List.map_nil, List.foldl_cons, List.foldl_nil]
    omega
  have hn : ((n / 4096 * 16 + n / 256 % 16) * 16 + n / 16 % 16) * 16 + n % 16 = n := by omega
  show (if byteLength [a, b, c, d] < 4 then _ else _) = _
  rw [if_neg hlong]
  simp only [List.cons_append, List.nil_append, ha.hexValue?, hb.hexValue?, hc.hexValue?, hd.hexValue?, hn]

/-! ### Characters of a text -/

/-- The escapes of one letter, with the characters that they stand for. -/
def shortEscapes : List (Char × Char) :=
  [('"', '"'), ('\\', '\\'), ('/', '/'), ('b', '\x08'), ('f', '\x0c'), ('n', '\n'), ('r', '\r'), ('t', '\t')]

/-- The ways to write a character of a text. -/
inductive Letter (c : Char) : List Char → Prop
  | /-- As it is. -/ plain (hquote : c ≠ '"') (hslash : c ≠ '\\') (hcontrol : 0x20 ≤ c.toNat) : Letter c [c]
  | /-- By an escape of one letter. -/ short {x : Char} (h : (x, c) ∈ shortEscapes) : Letter c ['\\', x]
  | /-- By its number. -/ number {a : List Char} (h : FourDigits c.toNat a) : Letter c ('\\' :: 'u' :: a)
  | /-- By two numbers, if its own takes more than four digits. -/
    pair {a b : List Char} (hlarge : 0x10000 ≤ c.toNat)
      (hhigh : FourDigits (0xd800 + (c.toNat - 0x10000) / 0x400) a)
      (hlow : FourDigits (0xdc00 + (c.toNat - 0x10000) % 0x400) b) :
      Letter c ('\\' :: 'u' :: a ++ '\\' :: 'u' :: b)

/-- A character is no half of a surrogate pair. -/
theorem not_surrogate (c : Char) : c.toNat < 0xd800 ∨ 0xdfff < c.toNat ∧ c.toNat < 0x110000 := c.valid

theorem unicodeEscape_number {c : Char} {ds : List Char} (h : FourDigits c.toNat ds) (rest : List Char) :
    Scan.unicodeEscape (ds ++ rest) = .ok (c, rest) := by
  have hc := not_surrogate c
  unfold Scan.unicodeEscape
  rw [h.hexEscape]
  show (if _ then _ else if _ then _ else _) = _
  rw [if_neg (by omega), if_pos (by omega), Char.ofNat_toNat]

theorem unicodeEscape_pair {high low : Nat} {ds es : List Char} (hhigh : FourDigits high ds)
    (hlow : FourDigits low es) (h : 0xd800 ≤ high ∧ high ≤ 0xdbff) (h' : 0xdc00 ≤ low ∧ low ≤ 0xdfff)
    (rest : List Char) :
    Scan.unicodeEscape (ds ++ '\\' :: 'u' :: es ++ rest) =
      .ok (Char.ofNat ((high - 0xd800) * 0x400 + (low - 0xdc00) + 0x10000), rest) := by
  unfold Scan.unicodeEscape
  rw [List.append_assoc, hhigh.hexEscape]
  simp only [List.cons_append, bind, Except.bind, Scan.pairMark, if_true]
  rw [hlow.hexEscape, if_neg (by omega), if_neg (by omega)]
  dsimp only
  rw [if_neg (by omega)]

theorem escape_short {x c : Char} (h : (x, c) ∈ shortEscapes) (rest : List Char) :
    Scan.escape (x :: rest) = .ok (c, rest) := by
  simp only [shortEscapes, List.mem_cons, List.not_mem_nil, or_false, Prod.mk.injEq] at h
  obtain ⟨rfl, rfl⟩ | ⟨rfl, rfl⟩ | ⟨rfl, rfl⟩ | ⟨rfl, rfl⟩ | ⟨rfl, rfl⟩ | ⟨rfl, rfl⟩ |
    ⟨rfl, rfl⟩ | ⟨rfl, rfl⟩ := h <;> rfl

/-- **A character is scanned** however it is written. -/
theorem Letter.stringFrom {c : Char} {text : List Char} (h : Letter c text) (fuel : Nat)
    (done rest : List Char) :
    Scan.stringFrom (fuel + 1) done (text ++ rest) = Scan.stringFrom fuel (c :: done) rest := by
  have hescape {t : List Char} (h : Scan.escape (t ++ rest) = .ok (c, rest)) :
      Scan.stringFrom (fuel + 1) done ('\\' :: t ++ rest) = Scan.stringFrom fuel (c :: done) rest := by
    rw [List.cons_append, Scan.stringFrom, h]
  cases h with
  | plain hquote hslash hcontrol =>
    have hcontrol : Scan.isControl c = false := by simpa [Scan.isControl] using hcontrol
    rw [List.cons_append, List.nil_append, Scan.stringFrom.eq_5 _ _ _ _ hquote hslash, hcontrol]
    rfl
  | short h => exact hescape (escape_short h rest)
  | number h => exact hescape (unicodeEscape_number h rest)
  | @pair a b hlarge hhigh hlow =>
    have hc := not_surrogate c
    have hchar := unicodeEscape_pair hhigh hlow (by omega) (by omega) rest
    rw [Nat.add_sub_cancel_left, Nat.add_sub_cancel_left, Nat.div_add_mod', Nat.sub_add_cancel hlarge,
      Char.ofNat_toNat] at hchar
    exact hescape (t := 'u' :: a ++ '\\' :: 'u' :: b) hchar

/-! ### Texts -/

/-- The ways to write a text. -/
def Quoted (s : String) (text : List Char) : Prop :=
  ∃ letters, List.Forall₂ Letter s.toList letters ∧ text = '"' :: letters.flatten ++ ['"']

theorem stringFrom_letters {cs : List Char} {letters : List (List Char)} (h : List.Forall₂ Letter cs letters)
    {fuel : Nat} (hfuel : letters.length < fuel) (done rest : List Char) :
    Scan.stringFrom fuel done (letters.flatten ++ '"' :: rest) =
      .ok (String.ofList (done.reverse ++ cs), rest) := by
  induction h generalizing fuel done with
  | nil =>
    obtain ⟨fuel, rfl⟩ := Nat.exists_eq_add_of_lt hfuel
    simp [Scan.stringFrom]
  | @cons c letter cs letters hletter _ ih =>
    obtain ⟨fuel, rfl⟩ := Nat.exists_eq_add_of_lt (Nat.zero_lt_of_lt hfuel)
    rw [Nat.zero_add] at hfuel ⊢
    rw [List.flatten_cons, List.append_assoc, hletter.stringFrom,
      ih (by simpa using hfuel), List.reverse_cons, List.append_assoc]
    rfl

theorem Letter.length_pos {c : Char} {text : List Char} (h : Letter c text) : 0 < text.length := by
  cases h <;> simp

theorem length_le_length_flatten {cs : List Char} {letters : List (List Char)}
    (h : List.Forall₂ Letter cs letters) :
    letters.length ≤ letters.flatten.length := by
  induction h with
  | nil => exact Nat.le_refl _
  | cons hletter _ ih =>
    have := hletter.length_pos
    simp only [List.length_cons, List.flatten_cons, List.length_append]
    omega

/-- **A text is scanned** from behind its opening quote, however it is written. -/
theorem string_letters {s : String} {letters : List (List Char)} (h : List.Forall₂ Letter s.toList letters)
    (rest : List Char) : Scan.string (letters.flatten ++ '"' :: rest) = .ok (s, rest) := by
  have hlen := length_le_length_flatten h
  rw [Scan.string, stringFrom_letters h (by simp only [List.length_append]; omega)]
  simp

/-- The number of a control character has two zeros in front. -/
theorem fourDigits_of_lt {n : Nat} (h : n < 0x20) :
    FourDigits n ['0', '0', hexDigit (n / 16), hexDigit (n % 16)] := by
  have hzero : HexDigit 0 '0' := ⟨by omega, .inl rfl⟩
  have hdigit {d : Nat} (h : d < 16) : HexDigit d (hexDigit d) := ⟨h, .inl rfl⟩
  have h₁ : n / 4096 = 0 := by omega
  have h₂ : n / 256 % 16 = 0 := by omega
  have h₃ : n / 16 % 16 = n / 16 := by omega
  rw [FourDigits, h₁, h₂, h₃]
  exact .cons hzero (.cons hzero (.cons (hdigit (by omega)) (.cons (hdigit (by omega)) .nil)))

/-- How a text is written in a report is one of the ways to write it. -/
theorem quoted_escape (s : String) : Quoted s (escape s).toList := by
  refine ⟨s.toList.map escapeChar, ?_, by simp [escape, List.flatMap]⟩
  rw [List.forall₂_map_right_iff, List.forall₂_same]
  intro c _
  unfold escapeChar
  split
  case h_8 =>
    rename_i hquote hslash _ _ _ _ _
    split
    case isTrue h => exact .number (fourDigits_of_lt h)
    case isFalse h => exact .plain hquote hslash (Nat.le_of_not_lt h)
  all_goals exact .short (by simp [shortEscapes])

/-! ### Truth values -/

/-- How a truth value is written. -/
def truth : Bool → List Char
  | true => ['t', 'r', 'u', 'e']
  | false => ['f', 'a', 'l', 's', 'e']

/-- What is scanned from the next token on is scanned behind blanks. -/
theorem token_blank {α : Type} {blank : List Char} (hblank : Blank blank) {c : Char} (hc : isSpace c = false)
    (scan : Scan α) (rest : List Char) : Scan.token scan (blank ++ c :: rest) = scan (c :: rest) := by
  rw [Scan.token, skipSpace_blank_cons hblank hc]

theorem bool_truth {blank : List Char} (hblank : Blank blank) (b : Bool) (rest : List Char) :
    Scan.bool (blank ++ (truth b ++ rest)) = .ok (b, rest) := by
  cases b
  · exact token_blank hblank rfl _ _
  · exact token_blank hblank rfl _ _

/-- A text is scanned behind blanks. -/
theorem text_quoted {blank : List Char} (hblank : Blank blank) {s : String} {text : List Char}
    (h : Quoted s text) (expected : String) (rest : List Char) :
    Scan.text expected (blank ++ (text ++ rest)) = .ok (s, rest) := by
  obtain ⟨letters, hletters, rfl⟩ := h
  rw [List.append_assoc, List.cons_append, Scan.text, token_blank hblank rfl]
  exact string_letters hletters rest

/-! ### Values that may be missing -/

theorem nullable_null {α : Type} {blank : List Char} (hblank : Blank blank) (scan : Scan α)
    (rest : List Char) :
    Scan.nullable scan (blank ++ ('n' :: 'u' :: 'l' :: 'l' :: rest)) = .ok (none, rest) := by
  rw [Scan.nullable, skipSpace_blank_cons hblank rfl]
  rfl

theorem nullable_cons {α : Type} {blank : List Char} (hblank : Blank blank) {c : Char}
    (hc : isSpace c = false)
    (hnull : c ≠ 'n') {scan : Scan α} {text rest : List Char} {a : α}
    (h : scan (c :: text) = .ok (a, rest)) :
    Scan.nullable scan (blank ++ c :: text) = .ok (some a, rest) := by
  unfold Scan.nullable
  rw [skipSpace_blank_cons hblank hc]
  split
  case h_1 heq => exact absurd (List.cons.inj heq).1 hnull
  case h_2 =>
    rw [h]
    rfl

theorem nullable_quoted {blank : List Char} (hblank : Blank blank) {s : String} {text : List Char}
    (h : Quoted s text) (expected : String) (rest : List Char) :
    Scan.nullable (Scan.text expected) (blank ++ (text ++ rest)) = .ok (some s, rest) := by
  have hscan := text_quoted blank_nil h expected rest
  obtain ⟨letters, -, rfl⟩ := h
  exact nullable_cons hblank rfl (by decide) hscan

/-! ### Integers -/

/-- How an integer is written. -/
def numeral (i : Int) : List Char := (toString i).toList

theorem numeral_natCast (n : Nat) : numeral n = Nat.toDigits 10 n := by
  show n.repr.toList = _
  rw [Nat.repr_eq_ofList_toDigits, String.toList_ofList]

theorem numeral_negSucc (n : Nat) : numeral (.negSucc n) = '-' :: Nat.toDigits 10 (n + 1) := by
  show ("-" ++ (n + 1).repr).toList = _
  simp only [Nat.repr_eq_ofList_toDigits, String.toList_append, String.toList_ofList]
  rfl

/-- What may follow a number: no character that could go on with it. -/
def Apart (rest : List Char) : Prop :=
  ∀ c ∈ rest.head?, Scan.digit? c = none ∧ c ≠ '.' ∧ c ≠ 'e' ∧ c ≠ 'E'

theorem digit?_of_isDigit {c : Char} (h : c.isDigit = true) :
    Scan.digit? c = some (c.toNat - '0'.toNat) := by
  simp only [Char.isDigit, Bool.and_eq_true, decide_eq_true_eq] at h
  exact if_pos h

theorem digits_append {cs rest : List Char} (h : ∀ c ∈ cs, c.isDigit = true) (hrest : Apart rest) :
    Scan.digits (cs ++ rest) = (cs.map fun c => c.toNat - '0'.toNat, rest) := by
  induction cs with
  | nil =>
    cases rest with
    | nil => rfl
    | cons c rest =>
      rw [List.nil_append, Scan.digits, (hrest c rfl).1]
      rfl
  | cons c cs ih =>
    rw [List.cons_append, Scan.digits, digit?_of_isDigit (h c List.mem_cons_self),
      ih fun c hc => h c (List.mem_cons_of_mem _ hc)]
    rfl

theorem le_foldl_digits (ds : List Nat) (n : Nat) : n ≤ ds.foldl (fun n d => n * 10 + d) n := by
  induction ds generalizing n with
  | nil => exact Nat.le_refl n
  | cons d ds ih => exact Nat.le_trans (by omega) (ih (n * 10 + d))

/-- Digits are all taken if the number that they form fits. -/
theorem takeDigits_eq {ds : List Nat} {n : Nat} (h : ds.foldl (fun n d => n * 10 + d) n < significandLimit) :
    takeDigits n ds = (ds.foldl (fun n d => n * 10 + d) n, []) := by
  induction ds generalizing n with
  | nil => rfl
  | cons d ds ih =>
    rw [takeDigits, if_pos (Nat.lt_of_le_of_lt (le_foldl_digits ds _) h), ih h]
    rfl

theorem foldl_digits (cs : List Char) (n : Nat) :
    (cs.map fun c => c.toNat - '0'.toNat).foldl (fun n d => n * 10 + d) n = Nat.ofDigitChars 10 cs n := by
  rw [List.foldl_map, Nat.ofDigitChars_eq_foldl]
  simp only [Nat.mul_comm]

/-- **An integer's digits are scanned** to it, or to its opposite behind a sign. -/
theorem number_toDigits (positive : Bool) {n : Nat} (hn : n < significandLimit) {rest : List Char}
    (hrest : Apart rest) :
    Scan.number positive (Nat.toDigits 10 n ++ rest) =
      if positive then .ok (.unsigned n, rest)
      else if n = 0 ∨ Nat.pow 2 63 < n then .ok (signedFloat false (UInt64.ofNat n).toFloat, rest)
      else .ok (.signed (-n), rest) := by
  have hdigits := digits_append (fun c hc => isDigit_of_toDigits (n := n) hc) hrest
  have hvalue := foldl_digits (Nat.toDigits 10 n) 0
  rw [Nat.ofDigitChars_ten_toDigits] at hvalue
  have htake := takeDigits_eq (hvalue ▸ hn)
  rw [hvalue] at htake
  unfold Scan.number
  rw [hdigits]
  -- there are digits, and no zero stands in front of others
  split
  case h_1 heq => simp [Nat.toDigits_ne_nil] at heq
  case h_2 heq => simp [Nat.toDigits_ne_nil] at heq
  case h_3 d ds _ heq =>
    obtain ⟨c, cs, hcs, hc, htail⟩ := List.map_eq_cons_iff.mp (Prod.mk.inj heq).1
    obtain ⟨c', cs', rfl, -, -⟩ := List.map_eq_cons_iff.mp htail
    have hdigit := isDigit_of_toDigits (hcs ▸ List.mem_cons_self : c ∈ Nat.toDigits 10 n)
    rw [eq_zero_of_isDigit hdigit hc] at hcs
    exact absurd hcs (toDigits_ne_zero_cons n c' cs')
  case h_4 heq =>
    cases heq
    simp only [htake]
    -- what follows goes on with neither a fraction nor an exponent
    split
    case h_1 => exact absurd rfl (hrest _ rfl).2.1
    case h_2 => exact absurd rfl (hrest _ rfl).2.2.1
    case h_3 => exact absurd rfl (hrest _ rfl).2.2.2
    case h_4 => rfl

theorem isSpace_of_isDigit {c : Char} (h : c.isDigit = true) : isSpace c = false := by
  by_contra hspace
  simp only [isSpace, Bool.not_eq_false, Bool.or_eq_true, beq_iff_eq] at hspace
  obtain ((rfl | rfl) | rfl) | rfl := hspace <;> revert h <;> decide

/-- **An integer is scanned**, if it is in the range and fits 64 bits. -/
theorem integer_numeral {blank : List Char} (hblank : Blank blank) (expected : String) {low high i : Int}
    (hrange : low ≤ i ∧ i ≤ high) (hfits : -9223372036854775808 ≤ i ∧ i ≤ 18446744073709551615)
    {rest : List Char} (hrest : Apart rest) :
    Scan.integer expected low high (blank ++ (numeral i ++ rest)) = .ok (i, rest) := by
  have hlimit : significandLimit = 18446744073709551616 := by decide
  have hsigned : Nat.pow 2 63 = 9223372036854775808 := by decide
  unfold Scan.integer
  cases i with
  | ofNat n =>
    have hn : n < significandLimit := by
      have := hfits.2
      rw [Int.ofNat_eq_natCast] at this
      omega
    have hnumber := number_toDigits true hn hrest
    rw [Int.ofNat_eq_natCast, numeral_natCast]
    rw [if_pos rfl] at hnumber
    obtain ⟨c, cs, hds, hdigit⟩ := exists_toDigits_cons n
    have hminus : c ≠ '-' := by rintro rfl; revert hdigit; decide
    rw [hds, List.cons_append] at hnumber
    rw [hds, List.cons_append, token_blank hblank (isSpace_of_isDigit hdigit)]
    split
    case h_1 heq => exact absurd (List.cons.inj heq).1 hminus
    case h_2 heq =>
      cases heq
      rw [digit?_of_isDigit hdigit, Option.isSome_some, if_pos rfl, hnumber]
      exact if_pos hrange
    case h_3 heq => cases heq
  | negSucc n =>
    have hn : n + 1 ≤ Nat.pow 2 63 := by
      have := hfits.1
      rw [Int.negSucc_eq] at this
      omega
    have hnumber := number_toDigits (n := n + 1) false (by omega) hrest
    rw [if_neg (by decide), if_neg (by omega)] at hnumber
    rw [numeral_negSucc, List.cons_append, token_blank hblank rfl]
    show (Scan.number false (Nat.toDigits 10 (n + 1) ++ rest) >>= _) = _
    rw [hnumber]
    exact if_pos hrange

end SnapStore.Json
