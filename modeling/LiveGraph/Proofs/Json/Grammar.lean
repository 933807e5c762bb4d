import LiveGraph.Json.Reader

/-!
# The grammar of documents

Which texts spell a document: the rules of JSON, each as a relation between what is meant and the
characters that stand for it. The same document has many spellings, because blanks may stand between its
parts and the characters of a string may be escaped.

The second half ties the readers of numbers and strings to the rules. What a number's reader takes
depends on what stands behind the number, so its rules are used with a rest that does not continue it.
At the end, every document has a spelling.
-/

namespace LiveGraph

namespace Json

/-! ## Rules -/

/-- Blanks only. -/
def Blanks (cs : List Char) : Prop := ∀ c ∈ cs, isBlank c = true

/-- One or more digits. -/
def Digits (ds : List Char) : Prop := ds ≠ [] ∧ ∀ d ∈ ds, d.isDigit = true

/-- The integer part of a number: decimal digits, where a zero in front stands alone. -/
structure Whole (n : Nat) (ds : List Char) : Prop where
  digits : Digits ds
  lead : ds.head? = some '0' → ds = ['0']
  value : Nat.ofDigitChars 10 ds 0 = n

/-- The fraction of a number. -/
inductive Fraction : List Char → Prop
  | intro {ds : List Char} (hdigits : Digits ds) : Fraction ('.' :: ds)

/-- The exponent of a number. -/
inductive Exponent : List Char → Prop
  | intro {e : Char} {sign ds : List Char} (he : e = 'e' ∨ e = 'E')
      (hsign : sign = [] ∨ sign = ['+'] ∨ sign = ['-']) (hdigits : Digits ds) :
      Exponent (e :: (sign ++ ds))

/-- A number. -/
inductive Numeral : Literal → List Char → Prop
  | intro {sign whole fraction exponent : List Char} {n : Nat} (hsign : sign = [] ∨ sign = ['-'])
      (hwhole : Whole n whole) (hfraction : fraction = [] ∨ Fraction fraction)
      (hexponent : exponent = [] ∨ Exponent exponent) :
      Numeral ⟨!sign.isEmpty, n, fraction.isEmpty && exponent.isEmpty⟩
        (sign ++ (whole ++ (fraction ++ exponent)))

/-- A character of a string, as it stands between the quotes. -/
inductive Escaped : Char → List Char → Prop
  /-- It stands for itself. -/
  | plain {c : Char} (hquote : c ≠ '"') (hslash : c ≠ '\\') (hprintable : ¬ c < ' ') : Escaped c [c]
  /-- It has a letter of its own. -/
  | letter {c e : Char} (h : escape? e = some c) : Escaped c ['\\', e]
  /-- Its number is given. -/
  | unit {x a b c d : Char} (h : unit? a b c d = some x.toNat) : Escaped x ['\\', 'u', a, b, c, d]
  /-- Its number takes more than 16 bits, and is given by two halves. -/
  | pair {x a b c d e f g h : Char} {hi lo : Nat} (hhi : unit? a b c d = some hi)
      (hlo : unit? e f g h = some lo) (high : 0xd800 ≤ hi ∧ hi < 0xdc00)
      (low : 0xdc00 ≤ lo ∧ lo < 0xe000)
      (hx : x.toNat = 0x10000 + (hi - 0xd800) * 0x400 + (lo - 0xdc00)) :
      Escaped x ['\\', 'u', a, b, c, d, '\\', 'u', e, f, g, h]

/-- The characters of a string between the quotes. -/
inductive Unquoted : List Char → List Char → Prop
  | nil : Unquoted [] []
  | cons {c : Char} {s cs rest : List Char} (hc : Escaped c cs) (hs : Unquoted s rest) :
      Unquoted (c :: s) (cs ++ rest)

/-- A string. -/
inductive Quoted : String → List Char → Prop
  | intro {s : String} {cs : List Char} (h : Unquoted s.toList cs) : Quoted s ('"' :: (cs ++ ['"']))

mutual

/-- A document without blanks around it. -/
inductive Spelling : Json → List Char → Prop
  | null : Spelling .null ['n', 'u', 'l', 'l']
  | yes : Spelling (.bool true) ['t', 'r', 'u', 'e']
  | no : Spelling (.bool false) ['f', 'a', 'l', 's', 'e']
  | number {l : Literal} {cs : List Char} (h : Numeral l cs) : Spelling (.number l) cs
  | string {s : String} {cs : List Char} (h : Quoted s cs) : Spelling (.string s) cs
  | emptyArray {cs : List Char} (h : Blanks cs) : Spelling (.array []) ('[' :: (cs ++ [']']))
  | array {items : List Json} {cs : List Char} (h : Items items cs) :
      Spelling (.array items) ('[' :: (cs ++ [']']))
  | emptyObject {cs : List Char} (h : Blanks cs) :
      Spelling (.object []) ('\x7b' :: (cs ++ ['\x7d']))
  | object {members : List (String × Json)} {cs : List Char} (h : Members members cs) :
      Spelling (.object members) ('\x7b' :: (cs ++ ['\x7d']))

/-- A document with blanks around it. -/
inductive Padded : Json → List Char → Prop
  | intro {x : Json} {before cs after : List Char} (hbefore : Blanks before) (h : Spelling x cs)
      (hafter : Blanks after) : Padded x (before ++ (cs ++ after))

/-- The items of an array that is not empty. -/
inductive Items : List Json → List Char → Prop
  | last {x : Json} {cs : List Char} (h : Padded x cs) : Items [x] cs
  | more {x : Json} {xs : List Json} {cs rest : List Char} (h : Padded x cs) (hs : Items xs rest) :
      Items (x :: xs) (cs ++ ',' :: rest)

/-- The members of an object that is not empty. -/
inductive Members : List (String × Json) → List Char → Prop
  | last {m : String × Json} {cs : List Char} (h : Member m cs) : Members [m] cs
  | more {m : String × Json} {ms : List (String × Json)} {cs rest : List Char} (h : Member m cs)
      (hs : Members ms rest) : Members (m :: ms) (cs ++ ',' :: rest)

/-- A member of an object. -/
inductive Member : String × Json → List Char → Prop
  | intro {key : String} {x : Json} {before quoted after cs : List Char} (hbefore : Blanks before)
      (hkey : Quoted key quoted) (hafter : Blanks after) (h : Padded x cs) :
      Member (key, x) (before ++ (quoted ++ (after ++ ':' :: cs)))

end

/-! ## Blanks -/

theorem blanks_nil : Blanks [] := by
  rintro _ ⟨⟩

/-- Blanks in front of a text are skipped, however many there are. -/
theorem skipBlanks_append {ws rest : List Char} (h : Blanks ws) :
    skipBlanks (ws ++ rest) = skipBlanks rest :=
  List.dropWhile_append_of_pos h

/-- Nothing is skipped in front of a character that is not blank. -/
theorem skipBlanks_cons {c : Char} (hc : isBlank c = false) (cs : List Char) :
    skipBlanks (c :: cs) = c :: cs :=
  List.dropWhile_cons_of_neg (by rw [hc]; exact Bool.false_ne_true)

/-- What is skipped are blanks. -/
theorem exists_blanks (cs : List Char) : ∃ ws, Blanks ws ∧ cs = ws ++ skipBlanks cs :=
  ⟨cs.takeWhile isBlank, List.all_eq_true.1 List.all_takeWhile,
    List.takeWhile_append_dropWhile.symm⟩

/-- Skipping leaves nothing exactly if there was nothing but blanks. -/
theorem skipBlanks_eq_nil_iff {cs : List Char} : skipBlanks cs = [] ↔ Blanks cs := by
  constructor
  · intro h
    obtain ⟨ws, hws, heq⟩ := exists_blanks cs
    rw [h, List.append_nil] at heq
    exact heq ▸ hws
  · intro h
    have heq := @skipBlanks_append cs [] h
    rwa [List.append_nil] at heq

/-! ## Numbers -/

/-- The character may go on a number. -/
def goesOn (c : Char) : Bool := c.isDigit || c == '.' || c == 'e' || c == 'E'

/-- The text does not go on a number that stands in front of it. -/
def Follows (rest : List Char) : Prop := ∀ c, rest.head? = some c → goesOn c = false

/-- The text does not start with a digit. -/
def NoDigit (rest : List Char) : Prop := ∀ c, rest.head? = some c → c.isDigit = false

theorem follows_cons {c : Char} (hc : goesOn c = false) (cs : List Char) : Follows (c :: cs) := by
  rintro _ ⟨⟩
  exact hc

theorem noDigit_cons {c : Char} (hc : c.isDigit = false) (cs : List Char) : NoDigit (c :: cs) := by
  rintro _ ⟨⟩
  exact hc

/-- What stands behind a number starts with none of the characters that go on a number. -/
theorem Follows.cases {rest : List Char} (h : Follows rest) :
    rest = [] ∨ ∃ c cs, rest = c :: cs ∧ c.isDigit = false ∧ c ≠ '.' ∧ c ≠ 'e' ∧ c ≠ 'E' := by
  cases rest with
  | nil => exact .inl rfl
  | cons c cs =>
    have hc := h c rfl
    simp only [goesOn, Bool.or_eq_false_iff, beq_eq_false_iff_ne] at hc
    exact .inr ⟨c, cs, rfl, hc.1.1.1, hc.1.1.2, hc.1.2, hc.2⟩

/-- What stands behind a number does not start with a digit either. -/
theorem Follows.noDigit {rest : List Char} (h : Follows rest) : NoDigit rest := by
  rcases h.cases with rfl | ⟨c, cs, rfl, hc, -⟩
  · rintro _ ⟨⟩
  · exact noDigit_cons hc cs

/-- Digits are taken as far as they go. -/
theorem readDigits_append {ds rest : List Char} (hds : Digits ds) (hrest : NoDigit rest) :
    readDigits (ds ++ rest) = some (ds, rest) := by
  have hstop : rest.takeWhile Char.isDigit = [] ∧ rest.dropWhile Char.isDigit = rest := by
    cases rest with
    | nil => exact ⟨rfl, rfl⟩
    | cons c cs =>
      have hc : ¬ c.isDigit = true := by
        rw [hrest c rfl]
        exact Bool.false_ne_true
      exact ⟨List.takeWhile_cons_of_neg hc, List.dropWhile_cons_of_neg hc⟩
  obtain ⟨hne, hall⟩ := hds
  rw [readDigits, List.takeWhile_append_of_pos hall, List.dropWhile_append_of_pos hall, hstop.1,
    hstop.2, List.append_nil]
  cases ds with
  | nil => exact absurd rfl hne
  | cons d ds => rfl

/-- What the reader of digits takes is at least one digit. -/
theorem digits_of_readDigits {cs ds rest : List Char} (h : readDigits cs = some (ds, rest)) :
    Digits ds ∧ cs = ds ++ rest := by
  unfold readDigits at h
  split at h
  · cases h
  · next hne =>
    cases h
    exact ⟨⟨hne, List.all_eq_true.1 List.all_takeWhile⟩, List.takeWhile_append_dropWhile.symm⟩

theorem Digits.head?_append {ds : List Char} (h : Digits ds) (rest : List Char) :
    (ds ++ rest).head? = ds.head? := by
  cases ds with
  | nil => exact absurd rfl h.1
  | cons d ds => rfl

/-- Digits that do not start with a zero are read as digits. -/
theorem readWhole_of_head {cs : List Char} (h : cs.head? ≠ some '0') :
    readWhole cs = (readDigits cs).map fun (ds, rest) => (digitsValue ds, rest) := by
  unfold readWhole
  split
  · exact absurd rfl h
  · rfl

/-- An integer part in front of something that is not a digit is read as its value. A zero in front
needs no look at the rest, because the reader stops behind it. -/
theorem Whole.readWhole {n : Nat} {ds rest : List Char} (h : Whole n ds) (hrest : NoDigit rest) :
    readWhole (ds ++ rest) = some (n, rest) := by
  obtain ⟨hdigits, hlead, rfl⟩ := h
  by_cases hzero : ds.head? = some '0'
  · rw [hlead hzero]
    rfl
  · have hhead : (ds ++ rest).head? ≠ some '0' := by
      rw [hdigits.head?_append]
      exact hzero
    rw [readWhole_of_head hhead, readDigits_append hdigits hrest]
    rfl

theorem digits_zero : Digits ['0'] := by
  refine ⟨List.cons_ne_nil _ _, fun d hd => ?_⟩
  rw [List.mem_singleton.1 hd]
  rfl

/-- What is read as an integer part follows the rule for it: after a zero nothing more is taken. -/
theorem whole_of_readWhole {cs rest : List Char} {n : Nat} (h : readWhole cs = some (n, rest)) :
    ∃ ds, Whole n ds ∧ cs = ds ++ rest := by
  by_cases hzero : cs.head? = some '0'
  -- a zero in front is the whole integer part
  · obtain ⟨tail, rfl⟩ := List.head?_eq_some_iff.1 hzero
    cases h
    exact ⟨['0'], ⟨digits_zero, fun _ => rfl, rfl⟩, rfl⟩
  -- otherwise all digits are taken, and the first of them is no zero
  · rw [readWhole_of_head hzero] at h
    obtain ⟨⟨ds, rest'⟩, hread, heq⟩ := Option.map_eq_some_iff.1 h
    cases heq
    obtain ⟨hdigits, rfl⟩ := digits_of_readDigits hread
    refine ⟨ds, ⟨hdigits, fun hhead => absurd ?_ hzero, rfl⟩, rfl⟩
    rw [hdigits.head?_append]
    exact hhead

/-- A fraction is read whether it is there or not, if what follows is no fraction. -/
theorem readFraction_append {cs rest : List Char} (h : cs = [] ∨ Fraction cs)
    (hrest : NoDigit rest) (hdot : rest.head? ≠ some '.') :
    readFraction (cs ++ rest) = some (!cs.isEmpty, rest) := by
  rcases h with rfl | @⟨ds, hds⟩
  · rw [List.nil_append]
    unfold readFraction
    split
    · exact absurd rfl hdot
    · rfl
  · show (readDigits (ds ++ rest)).map _ = _
    rw [readDigits_append hds hrest]
    rfl

/-- What is read as a fraction is one, or nothing is taken. -/
theorem fraction_of_readFraction {cs rest : List Char} {b : Bool}
    (h : readFraction cs = some (b, rest)) :
    ∃ fraction, (fraction = [] ∨ Fraction fraction) ∧ b = !fraction.isEmpty ∧
      cs = fraction ++ rest := by
  unfold readFraction at h
  split at h
  · obtain ⟨⟨ds, rest'⟩, hread, heq⟩ := Option.map_eq_some_iff.1 h
    cases heq
    obtain ⟨hds, rfl⟩ := digits_of_readDigits hread
    exact ⟨_, .inr ⟨hds⟩, rfl, rfl⟩
  · cases h
    exact ⟨[], .inl rfl, rfl, rfl⟩

/-- Digits have no sign that could be skipped. -/
theorem Digits.skipSign {ds rest : List Char} (h : Digits ds) :
    skipSign (ds ++ rest) = ds ++ rest := by
  obtain ⟨hne, hall⟩ := h
  cases ds with
  | nil => exact absurd rfl hne
  | cons d ds =>
    have hd := hall d List.mem_cons_self
    rw [List.cons_append]
    unfold Json.skipSign
    split
    · next heq => cases heq; exact absurd hd (by decide)
    · next heq => cases heq; exact absurd hd (by decide)
    · rfl

/-- What is skipped in front of an exponent is one sign, or nothing. -/
theorem exists_sign (cs : List Char) :
    ∃ sign, (sign = [] ∨ sign = ['+'] ∨ sign = ['-']) ∧ cs = sign ++ skipSign cs := by
  unfold skipSign
  split
  · exact ⟨['+'], .inr (.inl rfl), rfl⟩
  · exact ⟨['-'], .inr (.inr rfl), rfl⟩
  · exact ⟨[], .inl rfl, rfl⟩

/-- An exponent is read whether it is there or not. -/
theorem readExponent_append {cs rest : List Char} (h : cs = [] ∨ Exponent cs)
    (hrest : Follows rest) : readExponent (cs ++ rest) = some (!cs.isEmpty, rest) := by
  rcases h with rfl | ⟨he, hsign, hds⟩
  · rcases hrest.cases with rfl | ⟨c, cs, rfl, -, -, hc, hc'⟩
    · rfl
    · show readExponent (c :: cs) = _
      unfold readExponent
      split
      · next heq => cases heq; exact absurd rfl hc
      · next heq => cases heq; exact absurd rfl hc'
      · rfl
  · next e sign ds =>
    -- digits have no sign of their own, so exactly the written one is skipped
    have hskip : skipSign (sign ++ ds ++ rest) = ds ++ rest := by
      rcases hsign with rfl | rfl | rfl
      · exact hds.skipSign
      · rfl
      · rfl
    have hread : (readDigits (skipSign (sign ++ ds ++ rest))).map (fun (_, rest) => (true, rest))
        = some (true, rest) := by
      rw [hskip, readDigits_append hds hrest.noDigit]
      rfl
    rcases he with rfl | rfl
    · exact hread
    · exact hread

/-- What is read as an exponent is one, or nothing is taken. -/
theorem exponent_of_readExponent {cs rest : List Char} {b : Bool}
    (h : readExponent cs = some (b, rest)) :
    ∃ exponent, (exponent = [] ∨ Exponent exponent) ∧ b = !exponent.isEmpty ∧
      cs = exponent ++ rest := by
  -- both letters continue in the same way
  have hsome : ∀ (e : Char) (cs : List Char), e = 'e' ∨ e = 'E' →
      (readDigits (skipSign cs)).map (fun (_, rest) => (true, rest)) = some (b, rest) →
      ∃ exponent, (exponent = [] ∨ Exponent exponent) ∧ b = !exponent.isEmpty ∧
        e :: cs = exponent ++ rest := by
    intro e cs he h
    obtain ⟨⟨ds, rest'⟩, hread, heq⟩ := Option.map_eq_some_iff.1 h
    cases heq
    obtain ⟨hds, hskip⟩ := digits_of_readDigits hread
    obtain ⟨sign, hsign, hcs⟩ := exists_sign cs
    rw [hskip] at hcs
    refine ⟨e :: (sign ++ ds), .inr ⟨he, hsign, hds⟩, rfl, ?_⟩
    rw [hcs, List.cons_append, List.append_assoc]
  unfold readExponent at h
  split at h
  · exact hsome 'e' _ (.inl rfl) h
  · exact hsome 'E' _ (.inr rfl) h
  · cases h
    exact ⟨[], .inl rfl, rfl, rfl⟩

/-- Behind the integer part stand a fraction, an exponent or what follows the number. -/
theorem noDigit_tail {fraction exponent rest : List Char}
    (hfraction : fraction = [] ∨ Fraction fraction) (hexponent : exponent = [] ∨ Exponent exponent)
    (hrest : Follows rest) :
    NoDigit (fraction ++ (exponent ++ rest)) ∧ NoDigit (exponent ++ rest) ∧
      (exponent ++ rest).head? ≠ some '.' := by
  -- an exponent starts with its letter, and without one the rest of the text decides
  have htail : NoDigit (exponent ++ rest) ∧ (exponent ++ rest).head? ≠ some '.' := by
    rcases hexponent with rfl | ⟨he, -, -⟩
    · refine ⟨hrest.noDigit, fun hdot => ?_⟩
      exact absurd (hrest '.' hdot) (by decide)
    · rcases he with rfl | rfl
      · exact ⟨noDigit_cons (by decide) _, by simp⟩
      · exact ⟨noDigit_cons (by decide) _, by simp⟩
  refine ⟨?_, htail⟩
  rcases hfraction with rfl | @⟨ds, -⟩
  · exact htail.1
  · exact noDigit_cons (c := '.') (by decide) _

/-- The three parts of a number without its sign are read one after another. -/
theorem readUnsigned_append {whole fraction exponent rest : List Char} {n : Nat} (negative : Bool)
    (hwhole : Whole n whole) (hfraction : fraction = [] ∨ Fraction fraction)
    (hexponent : exponent = [] ∨ Exponent exponent) (hrest : Follows rest) :
    readUnsigned negative (whole ++ (fraction ++ (exponent ++ rest)))
      = some (⟨negative, n, fraction.isEmpty && exponent.isEmpty⟩, rest) := by
  obtain ⟨hafter, htail, hdot⟩ := noDigit_tail hfraction hexponent hrest
  unfold readUnsigned
  rw [hwhole.readWhole hafter]
  dsimp only [Option.bind_eq_bind, Option.bind_some]
  rw [readFraction_append hfraction htail hdot]
  dsimp only [Option.bind_some]
  rw [readExponent_append hexponent hrest]
  dsimp only [Option.bind_some]
  rw [Bool.not_not, Bool.not_not]
  rfl

theorem Digits.readNumber {ds rest : List Char} (h : Digits ds) :
    readNumber (ds ++ rest) = readUnsigned false (ds ++ rest) := by
  obtain ⟨hne, hall⟩ := h
  cases ds with
  | nil => exact absurd rfl hne
  | cons d ds =>
    have hd := hall d List.mem_cons_self
    rw [List.cons_append]
    unfold Json.readNumber
    split
    · next heq => cases heq; exact absurd hd (by decide)
    · rfl

/-- A number is read as the literal it stands for, wherever the text behind it does not continue it. -/
theorem Numeral.readNumber {l : Literal} {cs rest : List Char} (h : Numeral l cs)
    (hrest : Follows rest) : readNumber (cs ++ rest) = some (l, rest) := by
  obtain ⟨hsign, hwhole, hfraction, hexponent⟩ := h
  rw [List.append_assoc, List.append_assoc, List.append_assoc]
  rcases hsign with rfl | rfl
  · rw [List.nil_append, hwhole.digits.readNumber]
    exact readUnsigned_append false hwhole hfraction hexponent hrest
  · exact readUnsigned_append true hwhole hfraction hexponent hrest

/-- What is read behind the sign has the three parts of a number. -/
theorem numeral_of_readUnsigned {negative : Bool} {cs rest : List Char} {l : Literal}
    (h : readUnsigned negative cs = some (l, rest)) :
    ∃ whole fraction exponent n, Whole n whole ∧ (fraction = [] ∨ Fraction fraction) ∧
      (exponent = [] ∨ Exponent exponent) ∧
      l = ⟨negative, n, fraction.isEmpty && exponent.isEmpty⟩ ∧
      cs = whole ++ (fraction ++ (exponent ++ rest)) := by
  unfold readUnsigned at h
  obtain ⟨⟨n, cs₁⟩, hread, hrest⟩ := Option.bind_eq_some_iff.1 h
  obtain ⟨⟨b, cs₂⟩, hread', hrest'⟩ := Option.bind_eq_some_iff.1 hrest
  obtain ⟨⟨b', cs₃⟩, hread'', hanswer⟩ := Option.bind_eq_some_iff.1 hrest'
  obtain ⟨whole, hwhole, rfl⟩ := whole_of_readWhole hread
  obtain ⟨fraction, hfraction, rfl, rfl⟩ := fraction_of_readFraction hread'
  obtain ⟨exponent, hexponent, rfl, rfl⟩ := exponent_of_readExponent hread''
  cases hanswer
  refine ⟨whole, fraction, exponent, n, hwhole, hfraction, hexponent, ?_, rfl⟩
  rw [Bool.not_not, Bool.not_not]

/-- What is read as a number follows the rule for numbers. -/
theorem numeral_of_readNumber {cs rest : List Char} {l : Literal}
    (h : readNumber cs = some (l, rest)) : ∃ body, Numeral l body ∧ cs = body ++ rest := by
  unfold readNumber at h
  split at h
  · obtain ⟨whole, fraction, exponent, n, hwhole, hfraction, hexponent, rfl, rfl⟩ :=
      numeral_of_readUnsigned h
    exact ⟨_, .intro (.inr rfl) hwhole hfraction hexponent, by simp⟩
  · obtain ⟨whole, fraction, exponent, n, hwhole, hfraction, hexponent, rfl, rfl⟩ :=
      numeral_of_readUnsigned h
    exact ⟨_, .intro (.inl rfl) hwhole hfraction hexponent, by simp⟩

/-! ## Strings -/

theorem hexValue?_lt {c : Char} {n : Nat} (h : hexValue? c = some n) : n < 16 := by
  have hle : ∀ {a b : Char}, a ≤ b → a.toNat ≤ b.toNat := fun hab => hab
  unfold hexValue? at h
  split at h
  · next hc =>
    cases h
    have := hle hc.2
    have : '9'.toNat = 57 := rfl
    have : '0'.toNat = 48 := rfl
    omega
  split at h
  · next hc =>
    cases h
    have := hle hc.2
    have : 'f'.toNat = 102 := rfl
    have : 'a'.toNat = 97 := rfl
    omega
  split at h
  · next hc =>
    cases h
    have := hle hc.2
    have : 'F'.toNat = 70 := rfl
    have : 'A'.toNat = 65 := rfl
    omega
  · cases h

/-- Four hexadecimal digits make 16 bits. -/
theorem unit?_lt {a b c d : Char} {u : Nat} (h : unit? a b c d = some u) : u < 65536 := by
  unfold unit? at h
  obtain ⟨i, hi, h⟩ := Option.bind_eq_some_iff.1 h
  obtain ⟨j, hj, h⟩ := Option.bind_eq_some_iff.1 h
  obtain ⟨k, hk, h⟩ := Option.bind_eq_some_iff.1 h
  obtain ⟨l, hl, h⟩ := Option.bind_eq_some_iff.1 h
  cases h
  have := hexValue?_lt hi
  have := hexValue?_lt hj
  have := hexValue?_lt hk
  have := hexValue?_lt hl
  omega

theorem toNat_ofNat {n : Nat} (h : n.isValidChar) : (Char.ofNat n).toNat = n := by
  rw [Char.ofNat, dif_pos h]
  rfl

/-- A unit is a character by itself exactly if the character has its number; halves of pairs are no
characters. -/
theorem ofUnit?_eq_some_iff {u : Nat} {x : Char} (hu : u < 65536) :
    ofUnit? u = some x ↔ x.toNat = u := by
  unfold ofUnit?
  split
  · next hhalf =>
    constructor
    · intro h
      cases h
    · intro h
      -- no character has the number of a half
      have hvalid : x.toNat.isValidChar := x.valid
      unfold Nat.isValidChar at hvalid
      omega
  · next hwhole =>
    have hvalid : u.isValidChar := by
      unfold Nat.isValidChar
      omega
    rw [Option.some_inj]
    constructor
    · rintro rfl
      exact toNat_ofNat hvalid
    · rintro rfl
      exact Char.ofNat_toNat x

/-- Two units make a character exactly if they are halves in the right order. -/
theorem ofPair?_eq_some_iff {hi lo : Nat} {x : Char} :
    ofPair? hi lo = some x ↔ (0xd800 ≤ hi ∧ hi < 0xdc00) ∧ (0xdc00 ≤ lo ∧ lo < 0xe000) ∧
      x.toNat = 0x10000 + (hi - 0xd800) * 0x400 + (lo - 0xdc00) := by
  unfold ofPair?
  split
  · next h =>
    have hvalid : (0x10000 + (hi - 0xd800) * 0x400 + (lo - 0xdc00)).isValidChar := by
      unfold Nat.isValidChar
      omega
    rw [Option.some_inj]
    constructor
    · rintro rfl
      exact ⟨⟨h.1, h.2.1⟩, h.2.2, toNat_ofNat hvalid⟩
    · rintro ⟨-, -, hx⟩
      rw [← hx]
      exact Char.ofNat_toNat x
  · next h =>
    constructor
    · intro hnone
      cases hnone
    · rintro ⟨hhi, hlo, -⟩
      exact absurd ⟨hhi.1, hhi.2, hlo⟩ h

/-- A unit that is a character is read as one, whatever stands behind it. -/
theorem readStringTail_unit {a b c d x : Char} (h : unit? a b c d = some x.toNat)
    (read rest : List Char) :
    readStringTail read ('\\' :: 'u' :: a :: b :: c :: d :: rest) = readStringTail (x :: read) rest := by
  have hx : ofUnit? x.toNat = some x := (ofUnit?_eq_some_iff (unit?_lt h)).2 rfl
  -- with a second unit behind it the reader looks for a pair first
  by_cases hnext : ∃ e f g i cs, rest = '\\' :: 'u' :: e :: f :: g :: i :: cs
  · obtain ⟨e, f, g, i, cs, rfl⟩ := hnext
    rw [readStringTail, h]
    dsimp only
    rw [hx]
  · rw [readStringTail.eq_3 _ _ _ _ _ _ fun e f g i cs hcs => hnext ⟨e, f, g, i, cs, hcs⟩, h,
      Option.bind_some, hx]

/-- Two halves are read as the one character they make. -/
theorem readStringTail_pair {a b c d e f g i x : Char} {hi lo : Nat} (hhi : unit? a b c d = some hi)
    (hlo : unit? e f g i = some lo) (h : ofPair? hi lo = some x) (read rest : List Char) :
    readStringTail read ('\\' :: 'u' :: a :: b :: c :: d :: '\\' :: 'u' :: e :: f :: g :: i :: rest)
      = readStringTail (x :: read) rest := by
  obtain ⟨hhalf, -⟩ := ofPair?_eq_some_iff.1 h
  have hnone : ofUnit? hi = none := by
    rw [ofUnit?, if_pos (by omega)]
  rw [readStringTail, hhi]
  dsimp only
  rw [hnone]
  dsimp only
  rw [hlo, Option.bind_some, h]

/-- A letter behind a backslash is read as the character it stands for. -/
theorem readStringTail_letter {e c : Char} (h : escape? e = some c) (read rest : List Char) :
    readStringTail read ('\\' :: e :: rest) = readStringTail (c :: read) rest := by
  -- the letter of the units is not one of the letters of characters
  have hu : e ≠ 'u' := by
    rintro rfl
    cases h
  rw [readStringTail.eq_4 _ _ _ (fun _ _ _ _ _ _ _ _ _ he => absurd he hu)
    (fun _ _ _ _ _ he => absurd he hu), h]

/-- Any other character stands for itself, and a control character ends the reading. -/
theorem readStringTail_plain {c : Char} (hquote : c ≠ '"') (hslash : c ≠ '\\') (read rest : List Char) :
    readStringTail read (c :: rest)
      = if c < ' ' then none else readStringTail (c :: read) rest := by
  rw [readStringTail.eq_5 _ _ _ hquote (fun _ _ _ _ _ _ _ _ _ hc => absurd hc hslash)
    (fun _ _ _ _ _ hc => absurd hc hslash) (fun _ _ hc => absurd hc hslash)]
  simp only [hslash, false_or]

/-- However a character is written, the reader takes it and goes on behind it. -/
theorem Escaped.readStringTail {c : Char} {cs : List Char} (h : Escaped c cs) (read rest : List Char) :
    readStringTail read (cs ++ rest) = readStringTail (c :: read) rest := by
  cases h with
  | plain hquote hslash hprintable =>
    rw [List.singleton_append, readStringTail_plain hquote hslash, if_neg hprintable]
  | letter h => exact readStringTail_letter h read rest
  | unit h => exact readStringTail_unit h read rest
  | pair hhi hlo high low hx =>
    exact readStringTail_pair hhi hlo (ofPair?_eq_some_iff.2 ⟨high, low, hx⟩) read rest

/-- The characters of a string are read up to the quote, behind those that are read already. -/
theorem Unquoted.readStringTail {s cs : List Char} (h : Unquoted s cs) (read rest : List Char) :
    readStringTail read (cs ++ '"' :: rest) = some (String.ofList (read.reverse ++ s), rest) := by
  induction h generalizing read with
  | nil => rw [List.nil_append, Json.readStringTail, List.append_nil]
  | cons hc _ ih =>
    rw [List.append_assoc, hc.readStringTail, ih, List.reverse_cons, List.append_assoc,
      List.singleton_append]

theorem Quoted.readStringTail {s : String} {cs : List Char} (h : Quoted s cs) (rest : List Char) :
    ∃ body, cs ++ rest = '"' :: body ∧ readStringTail [] body = some (s, rest) := by
  obtain ⟨hs⟩ := h
  next inner =>
  refine ⟨inner ++ '"' :: rest, by simp, ?_⟩
  rw [hs.readStringTail, List.reverse_nil, List.nil_append, String.ofList_toList]

/-- What the reader of a string's characters takes is a spelling of what it answers. -/
theorem unquoted_of_readStringTail {read cs rest : List Char} {s : String}
    (h : readStringTail read cs = some (s, rest)) :
    ∃ t body, Unquoted t body ∧ s = String.ofList (read.reverse ++ t) ∧ cs = body ++ '"' :: rest := by
  -- a character that is read joins those behind it
  have hcons : ∀ {c : Char} {read part cs : List Char}, Escaped c part →
      (∃ t body, Unquoted t body ∧ s = String.ofList ((c :: read).reverse ++ t) ∧
        cs = body ++ '"' :: rest) →
      ∃ t body, Unquoted t body ∧ s = String.ofList (read.reverse ++ t) ∧
        part ++ cs = body ++ '"' :: rest := by
    rintro c read part _ hc ⟨t, body, hs, rfl, rfl⟩
    refine ⟨c :: t, part ++ body, .cons hc hs, ?_, (List.append_assoc ..).symm⟩
    rw [List.reverse_cons, List.append_assoc, List.singleton_append]
  fun_induction readStringTail read cs with
  | case1 read cs =>
    cases h
    exact ⟨[], [], .nil, by rw [List.append_nil], rfl⟩
  -- the cases in which the reader fails
  | case2 | case5 | case7 | case9 | case10 | case12 => cases h
  | case3 read a b c d e f g i cs u hu x hx ih =>
    rw [← (ofUnit?_eq_some_iff (unit?_lt hu)).1 hx] at hu
    exact hcons (.unit hu) (ih h)
  | case4 read a b c d e f g i cs u hu _ x hx ih =>
    obtain ⟨lo, hlo, hpair⟩ := Option.bind_eq_some_iff.1 hx
    obtain ⟨high, low, hx⟩ := ofPair?_eq_some_iff.1 hpair
    exact hcons (.pair hu hlo high low hx) (ih h)
  | case6 read a b c d cs _ x hx ih =>
    obtain ⟨u, hu, hx⟩ := Option.bind_eq_some_iff.1 hx
    rw [← (ofUnit?_eq_some_iff (unit?_lt hu)).1 hx] at hu
    exact hcons (.unit hu) (ih h)
  | case8 read e cs _ _ x hx ih => exact hcons (.letter hx) (ih h)
  | case11 read c cs hquote _ _ _ hplain ih =>
    obtain ⟨hslash, hprintable⟩ := not_or.1 hplain
    exact hcons (.plain hquote hslash hprintable) (ih h)

/-- What is read from a quote on is a string. -/
theorem quoted_of_readStringTail {cs rest : List Char} {s : String}
    (h : readStringTail [] cs = some (s, rest)) :
    ∃ body, Quoted s body ∧ '"' :: cs = body ++ rest := by
  obtain ⟨t, body, hs, rfl, rfl⟩ := unquoted_of_readStringTail h
  refine ⟨'"' :: (body ++ ['"']), .intro ?_, by simp⟩
  rw [List.reverse_nil, List.nil_append, String.toList_ofList]
  exact hs

/-! ## Every document has a spelling -/

theorem digits_toDigits (n : Nat) : Digits (Nat.toDigits 10 n) :=
  ⟨Nat.toDigits_ne_nil, fun _ => Nat.isDigit_of_mem_toDigits (by decide) (by decide)⟩

/-- A positive number is not written with a zero in front. -/
theorem toDigits_head?_ne {n : Nat} (hn : 0 < n) : (Nat.toDigits 10 n).head? ≠ some '0' := by
  induction n using Nat.strongRecOn with
  | ind n ih =>
    by_cases hlt : n < 10
    · have hdigit : ∀ d < 10, 0 < d → d.digitChar ≠ '0' := by decide
      rw [Nat.toDigits_of_lt_base hlt]
      intro h
      exact hdigit n hlt hn (Option.some.inj h)
    -- the leading digits are those of the quotient
    · have hhead := ih (n / 10) (by omega) (by omega)
      rw [Nat.toDigits_of_base_le (by decide) (by omega), (digits_toDigits _).head?_append]
      exact hhead

/-- The decimal digits of a number are an integer part. -/
theorem whole_toDigits (n : Nat) : Whole n (Nat.toDigits 10 n) where
  digits := digits_toDigits n
  lead h := by
    cases n with
    | zero => rfl
    | succ n => exact absurd h (toDigits_head?_ne (Nat.succ_pos n))
  value := Nat.ofDigitChars_ten_toDigits

theorem exists_numeral (l : Literal) : ∃ cs, Numeral l cs := by
  obtain ⟨negative, n, plain⟩ := l
  have hfraction : Fraction ['.', '0'] := .intro digits_zero
  have hsign : ∃ sign : List Char, (sign = [] ∨ sign = ['-']) ∧ (!sign.isEmpty) = negative := by
    cases negative with
    | false => exact ⟨[], .inl rfl, rfl⟩
    | true => exact ⟨['-'], .inr rfl, rfl⟩
  -- a number that is not written as an integer gets a fraction of zero
  have hrest : ∃ rest : List Char, (rest = [] ∨ Fraction rest) ∧ rest.isEmpty = plain := by
    cases plain with
    | false => exact ⟨['.', '0'], .inr hfraction, rfl⟩
    | true => exact ⟨[], .inl rfl, rfl⟩
  obtain ⟨sign, hsign, rfl⟩ := hsign
  obtain ⟨rest, hrest, rfl⟩ := hrest
  have hnumeral := Numeral.intro hsign (whole_toDigits n) hrest (.inl rfl)
  rw [List.isEmpty_nil, Bool.and_true] at hnumeral
  exact ⟨_, hnumeral⟩

/-- Every character can be written in a string: quote and backslash by their letters, controls by their
number, and the others as they are. -/
theorem exists_escaped (c : Char) : ∃ cs, Escaped c cs := by
  by_cases hquote : c = '"'
  · exact ⟨['\\', '"'], .letter (by rw [hquote]; rfl)⟩
  by_cases hslash : c = '\\'
  · exact ⟨['\\', '\\'], .letter (by rw [hslash]; rfl)⟩
  by_cases hcontrol : c < ' '
  -- both hexadecimal digits of the 32 control characters
  · have hunit : ∀ n < 32, unit? '0' '0' (n / 16).digitChar (n % 16).digitChar = some n := by decide
    exact ⟨_, .unit (hunit c.toNat hcontrol)⟩
  · exact ⟨[c], .plain hquote hslash hcontrol⟩

theorem exists_quoted (s : String) : ∃ cs, Quoted s cs := by
  have hunquoted : ∀ cs, ∃ out, Unquoted cs out := by
    intro cs
    induction cs with
    | nil => exact ⟨[], .nil⟩
    | cons c cs ih =>
      obtain ⟨out, hc⟩ := exists_escaped c
      obtain ⟨rest, hcs⟩ := ih
      exact ⟨out ++ rest, .cons hc hcs⟩
  obtain ⟨out, h⟩ := hunquoted s.toList
  exact ⟨_, .intro h⟩

theorem Spelling.padded {x : Json} {cs : List Char} (h : Spelling x cs) : Padded x cs := by
  have hpadded := Padded.intro blanks_nil h blanks_nil
  rwa [List.nil_append, List.append_nil] at hpadded

theorem Spelling.member {key : String} {x : Json} {quoted cs : List Char} (hkey : Quoted key quoted)
    (h : Spelling x cs) : Member (key, x) (quoted ++ ':' :: cs) := by
  exact .intro blanks_nil hkey blanks_nil h.padded

/-- A list of documents with spellings has one, with commas between them. -/
theorem exists_items {items : List Json} (h : ∀ x ∈ items, ∃ cs, Spelling x cs) (hne : items ≠ []) :
    ∃ cs, Items items cs := by
  induction items with
  | nil => exact absurd rfl hne
  | cons x xs ih =>
    obtain ⟨⟨cs, hx⟩, hall⟩ := List.forall_mem_cons.1 h
    cases xs with
    | nil => exact ⟨cs, .last hx.padded⟩
    | cons y ys =>
      obtain ⟨rest, hs⟩ := ih hall (List.cons_ne_nil y ys)
      exact ⟨_, .more hx.padded hs⟩

theorem exists_members {members : List (String × Json)} (h : ∀ m ∈ members, ∃ cs, Spelling m.2 cs)
    (hne : members ≠ []) : ∃ cs, Members members cs := by
  induction members with
  | nil => exact absurd rfl hne
  | cons m ms ih =>
    obtain ⟨⟨cs, hx⟩, hall⟩ := List.forall_mem_cons.1 h
    obtain ⟨quoted, hkey⟩ := exists_quoted m.1
    cases ms with
    | nil => exact ⟨_, .last (hx.member hkey)⟩
    | cons m' ms =>
      obtain ⟨rest, hs⟩ := ih hall (List.cons_ne_nil m' ms)
      exact ⟨_, .more (hx.member hkey) hs⟩

/-- Every document can be written down. -/
theorem exists_spelling (doc : Json) : ∃ cs, Spelling doc cs := by
  cases doc with
  | null => exact ⟨_, .null⟩
  | bool b =>
    cases b with
    | true => exact ⟨_, .yes⟩
    | false => exact ⟨_, .no⟩
  | number l =>
    obtain ⟨cs, h⟩ := exists_numeral l
    exact ⟨cs, .number h⟩
  | string s =>
    obtain ⟨cs, h⟩ := exists_quoted s
    exact ⟨cs, .string h⟩
  | array items =>
    by_cases hne : items = []
    · rw [hne]
      exact ⟨_, .emptyArray blanks_nil⟩
    · obtain ⟨cs, h⟩ := exists_items (fun x _ => exists_spelling x) hne
      exact ⟨_, .array h⟩
  | object members =>
    by_cases hne : members = []
    · rw [hne]
      exact ⟨_, .emptyObject blanks_nil⟩
    · obtain ⟨cs, h⟩ := exists_members (fun m _ => exists_spelling m.2) hne
      exact ⟨_, .object h⟩
termination_by sizeOf doc
decreasing_by
  · next hx =>
    have hlt := List.sizeOf_lt_of_mem hx
    simp only [array.sizeOf_spec]
    omega
  · next hm =>
    have hlt := List.sizeOf_lt_of_mem hm
    have hpair : sizeOf m = 1 + sizeOf m.1 + sizeOf m.2 := rfl
    simp only [object.sizeOf_spec]
    omega

end Json

end LiveGraph
