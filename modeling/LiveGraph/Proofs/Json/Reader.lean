import LiveGraph.Proofs.Json.Grammar

/-!
# The reader reads the grammar

A text is read as a document exactly if the grammar has it as a spelling of that document, with containers
inside each other no deeper than the reader goes. The readers of values, items and members call each
other with less and less fuel, so both directions are one induction on the fuel. In the direction from
the grammar to the reader the fuel is compared with the length of the spelling.
-/

namespace LiveGraph

namespace Json

/-- Containers stand inside each other at most so deep. -/
inductive Within : Nat → Json → Prop
  | null {d : Nat} : Within d .null
  | bool {d : Nat} {b : Bool} : Within d (.bool b)
  | number {d : Nat} {l : Literal} : Within d (.number l)
  | string {d : Nat} {s : String} : Within d (.string s)
  | array {d : Nat} {items : List Json} (h : ∀ x ∈ items, Within d x) : Within (d + 1) (.array items)
  | object {d : Nat} {members : List (String × Json)} (h : ∀ m ∈ members, Within d m.2) :
      Within (d + 1) (.object members)

/-! ## Blanks in front -/

theorem skipBlanks_skipBlanks (cs : List Char) : skipBlanks (skipBlanks cs) = skipBlanks cs := by
  obtain ⟨ws, hws, heq⟩ := exists_blanks cs
  rw [← skipBlanks_append hws, ← heq]

/-- The reader of values skips blanks itself, so it does not matter whether they are skipped before. -/
theorem readValue_skipBlanks (fuel d : Nat) (cs : List Char) :
    readValue fuel d (skipBlanks cs) = readValue fuel d cs := by
  cases fuel with
  | zero => rw [readValue, readValue]
  | succ fuel => rw [readValue, readValue, skipBlanks_skipBlanks]

/-- The same for the reader of items. -/
theorem readItems_skipBlanks (fuel d : Nat) (read : List Json) (cs : List Char) :
    readItems fuel d read (skipBlanks cs) = readItems fuel d read cs := by
  cases fuel with
  | zero => rw [readItems, readItems]
  | succ fuel => rw [readItems, readItems, readValue_skipBlanks]

/-- The same for the reader of members. -/
theorem readMembers_skipBlanks (fuel d : Nat) (read : List (String × Json)) (cs : List Char) :
    readMembers fuel d read (skipBlanks cs) = readMembers fuel d read cs := by
  cases fuel with
  | zero => rw [readMembers, readMembers]
  | succ fuel => rw [readMembers, readMembers, skipBlanks_skipBlanks]

/-! ## From the reader to the grammar -/

/-- An expected word stands in front of what is left. -/
theorem eq_append_of_expect {word cs rest : List Char} (h : expect word cs = some rest) :
    cs = word ++ rest := by
  induction word generalizing cs with
  | nil =>
    cases h
    rfl
  | cons w ws ih =>
    cases cs with
    | nil => cases h
    | cons c cs =>
      rw [expect] at h
      split at h
      · next hwc => rw [hwc, List.cons_append, ← ih h]
      · cases h

/-- With this fuel, what is read as a value is a spelling of it. -/
def ValuesSound (fuel : Nat) : Prop :=
  ∀ d cs x rest, readValue fuel d cs = some (x, rest) →
    Within d x ∧ ∃ ws body, Blanks ws ∧ Spelling x body ∧ cs = ws ++ (body ++ rest)

/-- With this fuel, what is read as items is a spelling of them, and a bracket. -/
def ItemsSound (fuel : Nat) : Prop :=
  ∀ d read cs xs rest, readItems fuel d read cs = some (xs, rest) →
    ∃ items body, (∀ x ∈ items, Within d x) ∧ Items items body ∧ xs = read.reverse ++ items ∧
      cs = body ++ ']' :: rest

/-- With this fuel, what is read as members is a spelling of them, and a brace. -/
def MembersSound (fuel : Nat) : Prop :=
  ∀ d read cs ms rest, readMembers fuel d read cs = some (ms, rest) →
    ∃ members body, (∀ m ∈ members, Within d m.2) ∧ Members members body ∧
      ms = read.reverse ++ members ∧ cs = body ++ '\x7d' :: rest

/-- What is read as a value is a spelling of it, if that holds for items and members with less fuel. One
case for each character that a value can start with. -/
theorem valuesSound_succ {fuel : Nat} (hitems : ItemsSound fuel) (hmembers : MembersSound fuel) :
    ValuesSound (fuel + 1) := by
  intro d cs x rest h
  obtain ⟨ws, hws, hcs⟩ := exists_blanks cs
  -- the blanks in front are dealt with first, so that each case starts at its character
  suffices hbody : Within d x ∧ ∃ body, Spelling x body ∧ skipBlanks cs = body ++ rest by
    obtain ⟨hwithin, body, hbody, heq⟩ := hbody
    exact ⟨hwithin, ws, body, hws, hbody, heq ▸ hcs⟩
  rw [readValue] at h
  generalize skipBlanks cs = cs at h ⊢
  split at h
  · obtain ⟨_, hread, heq⟩ := Option.map_eq_some_iff.1 h
    cases heq
    rw [eq_append_of_expect hread]
    exact ⟨.null, _, .null, rfl⟩
  · obtain ⟨_, hread, heq⟩ := Option.map_eq_some_iff.1 h
    cases heq
    rw [eq_append_of_expect hread]
    exact ⟨.bool, _, .yes, rfl⟩
  · obtain ⟨_, hread, heq⟩ := Option.map_eq_some_iff.1 h
    cases heq
    rw [eq_append_of_expect hread]
    exact ⟨.bool, _, .no, rfl⟩
  · obtain ⟨_, hread, heq⟩ := Option.map_eq_some_iff.1 h
    cases heq
    obtain ⟨body, hs, hbody⟩ := quoted_of_readStringTail hread
    exact ⟨.string, body, .string hs, hbody⟩
  -- an array: no depth is left, the bracket closes at once, or there are items
  · next cs =>
    obtain ⟨ws, hws, hcs⟩ := exists_blanks cs
    split at h
    · cases h
    · next heq =>
      cases h
      refine ⟨.array (by simp), _, .emptyArray hws, ?_⟩
      rw [hcs, heq]
      simp
    · rw [readItems_skipBlanks] at h
      obtain ⟨⟨xs, _⟩, hread, heq⟩ := Option.map_eq_some_iff.1 h
      cases heq
      obtain ⟨items, body, hwithin, hbody, rfl, rfl⟩ := hitems _ _ _ _ _ hread
      exact ⟨.array hwithin, _, .array hbody, by simp⟩
  -- an object, in the same three ways
  · next cs =>
    obtain ⟨ws, hws, hcs⟩ := exists_blanks cs
    split at h
    · cases h
    · next heq =>
      cases h
      refine ⟨.object (by simp), _, .emptyObject hws, ?_⟩
      rw [hcs, heq]
      simp
    · rw [readMembers_skipBlanks] at h
      obtain ⟨⟨ms, _⟩, hread, heq⟩ := Option.map_eq_some_iff.1 h
      cases heq
      obtain ⟨members, body, hwithin, hbody, rfl, rfl⟩ := hmembers _ _ _ _ _ hread
      exact ⟨.object hwithin, _, .object hbody, by simp⟩
  · obtain ⟨_, hread, heq⟩ := Option.map_eq_some_iff.1 h
    cases heq
    obtain ⟨body, hl, hbody⟩ := numeral_of_readNumber hread
    exact ⟨.number, body, .number hl, hbody⟩

/-- A value with what follows it up to a mark that is not blank is a document with blanks around it. -/
theorem padded_of_skipBlanks {x : Json} {ws body cs rest : List Char} {mark : Char} (hws : Blanks ws)
    (hbody : Spelling x body) (h : skipBlanks cs = mark :: rest) :
    ∃ part, Padded x part ∧ ws ++ (body ++ cs) = part ++ mark :: rest := by
  obtain ⟨after, hafter, heq⟩ := exists_blanks cs
  refine ⟨ws ++ (body ++ after), .intro hws hbody hafter, ?_⟩
  rw [heq, h]
  simp

/-- What is read as items is a spelling of them: a value, then a comma and more items, or the bracket. -/
theorem itemsSound_succ {fuel : Nat} (hvalues : ValuesSound fuel) (hitems : ItemsSound fuel) :
    ItemsSound (fuel + 1) := by
  intro d read cs xs rest h
  rw [readItems] at h
  obtain ⟨⟨x, cs₁⟩, hread, hnext⟩ := Option.bind_eq_some_iff.1 h
  obtain ⟨hwithin, ws, body, hws, hbody, rfl⟩ := hvalues _ _ _ _ hread
  dsimp only at hnext
  split at hnext
  · next heq =>
    obtain ⟨part, hpart, hcs⟩ := padded_of_skipBlanks hws hbody heq
    obtain ⟨items, tail, hall, htail, rfl, rfl⟩ := hitems _ _ _ _ _ hnext
    refine ⟨x :: items, part ++ ',' :: tail, ?_, .more hpart htail, by simp, ?_⟩
    · exact List.forall_mem_cons.2 ⟨hwithin, hall⟩
    · rw [hcs]
      simp
  · next heq =>
    obtain ⟨part, hpart, hcs⟩ := padded_of_skipBlanks hws hbody heq
    cases hnext
    exact ⟨[x], part, by simpa using hwithin, .last hpart, by simp, hcs⟩
  · cases hnext

theorem quoted_of_readString {cs rest : List Char} {s : String}
    (h : readString cs = some (s, rest)) : ∃ body, Quoted s body ∧ cs = body ++ rest := by
  unfold readString at h
  split at h
  · exact quoted_of_readStringTail h
  · cases h

/-- What is read as members is a spelling of them: key, colon and value, then a comma and more members,
or the brace. -/
theorem membersSound_succ {fuel : Nat} (hvalues : ValuesSound fuel) (hmembers : MembersSound fuel) :
    MembersSound (fuel + 1) := by
  intro d read cs ms rest h
  rw [readMembers] at h
  obtain ⟨⟨key, cs₁⟩, hkey, hnext⟩ := Option.bind_eq_some_iff.1 h
  obtain ⟨quoted, hquoted, hskip⟩ := quoted_of_readString hkey
  obtain ⟨before, hbefore, hcs⟩ := exists_blanks cs
  obtain ⟨after, hafter, hcs₁⟩ := exists_blanks cs₁
  dsimp only at hnext
  split at hnext
  · next cs₂ hcolon =>
    obtain ⟨⟨x, cs₃⟩, hread, hlast⟩ := Option.bind_eq_some_iff.1 hnext
    obtain ⟨hwithin, ws, body, hws, hbody, rfl⟩ := hvalues _ _ _ _ hread
    -- the member ends where its padded value ends
    have hmember : ∀ {part : List Char} {tail : List Char}, Padded x part →
        ws ++ (body ++ cs₃) = part ++ tail →
        ∃ whole, Member (key, x) whole ∧ cs = whole ++ tail := by
      intro part tail hpart heq
      refine ⟨before ++ (quoted ++ (after ++ ':' :: part)), .intro hbefore hquoted hafter hpart, ?_⟩
      rw [hcs, hskip, hcs₁, hcolon, heq]
      simp
    dsimp only at hlast
    split at hlast
    · next heq =>
      obtain ⟨part, hpart, hvalue⟩ := padded_of_skipBlanks hws hbody heq
      obtain ⟨whole, hwhole, rfl⟩ := hmember hpart hvalue
      obtain ⟨members, tail, hall, htail, rfl, rfl⟩ := hmembers _ _ _ _ _ hlast
      refine ⟨(key, x) :: members, whole ++ ',' :: tail, ?_, .more hwhole htail, by simp, by simp⟩
      exact List.forall_mem_cons.2 ⟨hwithin, hall⟩
    · next heq =>
      obtain ⟨part, hpart, hvalue⟩ := padded_of_skipBlanks hws hbody heq
      obtain ⟨whole, hwhole, rfl⟩ := hmember hpart hvalue
      cases hlast
      exact ⟨[(key, x)], whole, by simpa using hwithin, .last hwhole, by simp, rfl⟩
    · cases hlast
  · cases hnext

/-- None of the three readers takes what the grammar does not have. -/
theorem readers_sound (fuel : Nat) : ValuesSound fuel ∧ ItemsSound fuel ∧ MembersSound fuel := by
  induction fuel with
  | zero =>
    refine ⟨?_, ?_, ?_⟩
    · intro d cs x rest h
      rw [readValue] at h
      cases h
    · intro d read cs xs rest h
      rw [readItems] at h
      cases h
    · intro d read cs ms rest h
      rw [readMembers] at h
      cases h
  | succ fuel ih =>
    obtain ⟨hvalues, hitems, hmembers⟩ := ih
    exact ⟨valuesSound_succ hitems hmembers, itemsSound_succ hvalues hitems,
      membersSound_succ hvalues hmembers⟩

/-! ## From the grammar to the reader -/

/-- The first character of a value is none of those that stand around values. -/
def opens (c : Char) : Bool := !isBlank c && c != ']' && c != '\x7d'

/-- A number starts with its sign or a digit. -/
theorem Numeral.head {l : Literal} {cs : List Char} (h : Numeral l cs) :
    ∃ c tail, cs = c :: tail ∧ (c = '-' ∨ c.isDigit = true) := by
  obtain ⟨hsign, hwhole, -, -⟩ := h
  rcases hsign with rfl | rfl
  · obtain ⟨⟨hne, hall⟩, -, -⟩ := hwhole
    next whole _ _ _ =>
    cases whole with
    | nil => exact absurd rfl hne
    | cons d ds => exact ⟨d, _, rfl, .inr (hall d List.mem_cons_self)⟩
  · exact ⟨'-', _, rfl, .inl rfl⟩

theorem isDigit_opens {c : Char} (h : c = '-' ∨ c.isDigit = true) : opens c = true := by
  rcases h with rfl | h
  · decide
  -- none of the other characters is a digit
  · have hne : ∀ x : Char, x.isDigit = false → (c == x) = false := by
      intro x hx
      rw [beq_eq_false_iff_ne]
      rintro rfl
      rw [h] at hx
      cases hx
    simp [opens, isBlank, bne, hne ' ' (by decide), hne '\n' (by decide), hne '\t' (by decide),
      hne '\r' (by decide), hne ']' (by decide), hne '\x7d' (by decide)]

/-- A spelling starts with a character that is neither blank nor a closing mark. -/
theorem Spelling.head {x : Json} {cs : List Char} (h : Spelling x cs) :
    ∃ c tail, cs = c :: tail ∧ opens c = true := by
  cases h with
  | number h =>
    obtain ⟨c, tail, rfl, hc⟩ := h.head
    exact ⟨c, tail, rfl, isDigit_opens hc⟩
  | string h =>
    obtain ⟨-⟩ := h
    exact ⟨'"', _, rfl, by decide⟩
  | null | yes | no | emptyArray | array | emptyObject | object => exact ⟨_, _, rfl, by decide⟩

theorem isBlank_of_opens {c : Char} (h : opens c = true) : isBlank c = false := by
  simp only [opens, Bool.and_eq_true, Bool.not_eq_true'] at h
  exact h.1.1

/-- Blanks in front of a value are skipped. -/
theorem Spelling.skipBlanks {x : Json} {ws cs : List Char} (h : Spelling x cs) (hws : Blanks ws)
    (rest : List Char) : skipBlanks (ws ++ (cs ++ rest)) = cs ++ rest := by
  obtain ⟨c, tail, rfl, hc⟩ := h.head
  rw [skipBlanks_append hws, List.cons_append]
  exact skipBlanks_cons (isBlank_of_opens hc) _

/-- A value may stand in front of blanks and of the marks between values. -/
theorem follows_blanks {ws rest : List Char} (hws : Blanks ws) (hrest : Follows rest) :
    Follows (ws ++ rest) := by
  cases ws with
  | nil => exact hrest
  | cons c ws =>
    apply follows_cons
    have hc := hws c List.mem_cons_self
    simp only [isBlank, Bool.or_eq_true, beq_iff_eq] at hc
    rcases hc with ((rfl | rfl) | rfl) | rfl
    all_goals decide

/-- With this fuel, spellings of values are read that are not too long for it. -/
def ValuesComplete (fuel : Nat) : Prop :=
  ∀ d x ws cs rest, Blanks ws → Spelling x cs → Within d x → Follows rest → 2 * cs.length ≤ fuel →
    readValue fuel d (ws ++ (cs ++ rest)) = some (x, rest)

/-- With this fuel, spellings of items are read. -/
def ItemsComplete (fuel : Nat) : Prop :=
  ∀ d items cs read rest, Items items cs → (∀ x ∈ items, Within d x) → 2 * cs.length < fuel →
    readItems fuel d read (cs ++ ']' :: rest) = some (read.reverse ++ items, rest)

/-- With this fuel, spellings of members are read. -/
def MembersComplete (fuel : Nat) : Prop :=
  ∀ d members cs read rest, Members members cs → (∀ m ∈ members, Within d m.2) →
    2 * cs.length < fuel →
    readMembers fuel d read (cs ++ '\x7d' :: rest) = some (read.reverse ++ members, rest)

/-- Items are not mistaken for the end of an empty array. -/
theorem Items.skipBlanks_ne {items : List Json} {cs : List Char} (h : Items items cs)
    (rest tail : List Char) : skipBlanks (cs ++ rest) ≠ ']' :: tail := by
  -- the first item decides, behind the blanks in front of it
  have hpadded : ∀ {x : Json} {cs : List Char}, Padded x cs → ∀ rest,
      skipBlanks (cs ++ rest) ≠ ']' :: tail := by
    rintro x _ ⟨hbefore, hx, -⟩ rest
    rw [List.append_assoc, List.append_assoc, hx.skipBlanks hbefore]
    obtain ⟨c, tail', rfl, hc⟩ := hx.head
    rintro ⟨⟩
    cases hc
  cases h with
  | last hx => exact hpadded hx rest
  | more hx _ =>
    rw [List.append_assoc]
    exact hpadded hx _

theorem Quoted.skipBlanks {s : String} {ws cs : List Char} (h : Quoted s cs) (hws : Blanks ws)
    (rest : List Char) : Json.skipBlanks (ws ++ (cs ++ rest)) = cs ++ rest :=
  (Spelling.string h).skipBlanks hws rest

theorem Member.skipBlanks_ne {m : String × Json} {cs : List Char} (h : Member m cs)
    (rest tail : List Char) : skipBlanks (cs ++ rest) ≠ '\x7d' :: tail := by
  obtain ⟨hbefore, hkey, -, -⟩ := h
  rw [List.append_assoc, List.append_assoc, hkey.skipBlanks hbefore]
  obtain ⟨-⟩ := hkey
  rintro ⟨⟩

/-- Members are not mistaken for the end of an empty object. -/
theorem Members.skipBlanks_ne {members : List (String × Json)} {cs : List Char}
    (h : Members members cs) (rest tail : List Char) : skipBlanks (cs ++ rest) ≠ '\x7d' :: tail := by
  cases h with
  | last hm => exact hm.skipBlanks_ne rest tail
  | more hm _ =>
    rw [List.append_assoc]
    exact hm.skipBlanks_ne _ tail

/-- A sign or a digit sends the reader of values to numbers. -/
theorem readValue_number {c : Char} (hc : c = '-' ∨ c.isDigit = true) (fuel d : Nat)
    (cs : List Char) :
    readValue (fuel + 1) d (c :: cs)
      = (readNumber (c :: cs)).map fun (l, rest) => (.number l, rest) := by
  rw [readValue, skipBlanks_cons (isBlank_of_opens (isDigit_opens hc))]
  split
  -- all other cases start with a character that is neither a sign nor a digit
  all_goals first
    | rfl
    | next heq =>
      cases heq
      exact absurd hc (by decide)

theorem readValue_quote (fuel d : Nat) (cs : List Char) :
    readValue (fuel + 1) d ('"' :: cs)
      = (readStringTail [] cs).map fun (s, rest) => (.string s, rest) := rfl

theorem readValue_emptyArray {cs rest : List Char} (h : skipBlanks cs = ']' :: rest) (fuel d : Nat) :
    readValue (fuel + 1) (d + 1) ('[' :: cs) = some (.array [], rest) := by
  have hopen : skipBlanks ('[' :: cs) = '[' :: cs := rfl
  simp only [readValue, hopen, h]

/-- A bracket without its partner behind it sends the reader of values to items, one level deeper. -/
theorem readValue_array {cs : List Char} (h : ∀ tail, skipBlanks cs ≠ ']' :: tail) (fuel d : Nat) :
    readValue (fuel + 1) (d + 1) ('[' :: cs)
      = (readItems fuel d [] cs).map fun (xs, rest) => (.array xs, rest) := by
  have hopen : skipBlanks ('[' :: cs) = '[' :: cs := rfl
  rw [← readItems_skipBlanks]
  simp only [readValue, hopen]

theorem readValue_emptyObject {cs rest : List Char} (h : skipBlanks cs = '\x7d' :: rest)
    (fuel d : Nat) : readValue (fuel + 1) (d + 1) ('\x7b' :: cs) = some (.object [], rest) := by
  have hopen : skipBlanks ('\x7b' :: cs) = '\x7b' :: cs := rfl
  simp only [readValue, hopen, h]

/-- A brace without its partner behind it sends the reader of values to members, one level deeper. -/
theorem readValue_object {cs : List Char} (h : ∀ tail, skipBlanks cs ≠ '\x7d' :: tail) (fuel d : Nat) :
    readValue (fuel + 1) (d + 1) ('\x7b' :: cs)
      = (readMembers fuel d [] cs).map fun (ms, rest) => (.object ms, rest) := by
  have hopen : skipBlanks ('\x7b' :: cs) = '\x7b' :: cs := rfl
  rw [← readMembers_skipBlanks]
  simp only [readValue, hopen]

/-- Every spelling of a value is read, if that holds for items and members with less fuel. The brackets
around them pay for the step. -/
theorem valuesComplete_succ {fuel : Nat} (hitems : ItemsComplete fuel)
    (hmembers : MembersComplete fuel) : ValuesComplete (fuel + 1) := by
  intro d x ws cs rest hws hx hwithin hrest hfuel
  rw [← readValue_skipBlanks, hx.skipBlanks hws]
  cases hx with
  | null | yes | no => rfl
  | number h =>
    obtain ⟨c, tail, rfl, hc⟩ := h.head
    rw [List.cons_append, readValue_number hc, ← List.cons_append, h.readNumber hrest]
    rfl
  | string h =>
    obtain ⟨body, heq, hread⟩ := h.readStringTail rest
    rw [heq, readValue_quote, hread]
    rfl
  | emptyArray h =>
    obtain ⟨-⟩ := hwithin
    rw [List.cons_append, List.append_assoc]
    exact readValue_emptyArray (skipBlanks_append h) fuel _
  | array h =>
    cases hwithin with
    | array hall =>
      rw [List.length_cons, List.length_append] at hfuel
      rw [List.cons_append, List.append_assoc, List.singleton_append,
        readValue_array (h.skipBlanks_ne _), hitems _ _ _ _ _ h hall (by omega)]
      rfl
  | emptyObject h =>
    cases hwithin with
    | object _ =>
      rw [List.cons_append, List.append_assoc]
      exact readValue_emptyObject (skipBlanks_append h) fuel _
  | object h =>
    cases hwithin with
    | object hall =>
      rw [List.length_cons, List.length_append] at hfuel
      rw [List.cons_append, List.append_assoc, List.singleton_append,
        readValue_object (h.skipBlanks_ne _), hmembers _ _ _ _ _ h hall (by omega)]
      rfl

/-- A value in front of a mark is read, and the mark is found behind the blanks. -/
theorem ValuesComplete.padded {fuel : Nat} (h : ValuesComplete fuel) {d : Nat} {x : Json}
    {cs : List Char} (hx : Padded x cs) (hwithin : Within d x) (mark : Char) (rest : List Char)
    (hends : goesOn mark = false) (hblank : isBlank mark = false) (hfuel : 2 * cs.length ≤ fuel) :
    ∃ after, readValue fuel d (cs ++ mark :: rest) = some (x, after) ∧
      skipBlanks after = mark :: rest := by
  obtain ⟨hbefore, hspelling, hafter⟩ := hx
  next before body after =>
  refine ⟨after ++ mark :: rest, ?_, ?_⟩
  · rw [List.length_append, List.length_append] at hfuel
    rw [List.append_assoc, List.append_assoc]
    have hrest : Follows (after ++ mark :: rest) := follows_blanks hafter (follows_cons hends rest)
    exact h _ _ _ _ _ hbefore hspelling hwithin hrest (by omega)
  · rw [skipBlanks_append hafter, skipBlanks_cons hblank]

/-- All items are read, each up to the mark behind it. -/
theorem itemsComplete_succ {fuel : Nat} (hvalues : ValuesComplete fuel)
    (hitems : ItemsComplete fuel) : ItemsComplete (fuel + 1) := by
  intro d items cs read rest h hall hfuel
  rw [readItems]
  cases h with
  | last hx =>
    obtain ⟨after, hread, hmark⟩ := hvalues.padded hx (hall _ List.mem_cons_self) ']'
      rest (by decide) (by decide) (by omega)
    simp only [hread, Option.bind_eq_bind, Option.bind_some, hmark, List.reverse_cons]
  | @more x xs cs tail hx hs =>
    obtain ⟨hwithin, hall⟩ := List.forall_mem_cons.1 hall
    rw [List.length_append, List.length_cons] at hfuel
    obtain ⟨after, hread, hmark⟩ := hvalues.padded hx hwithin ',' (tail ++ ']' :: rest)
      (by decide) (by decide) (by omega)
    rw [List.append_assoc, List.cons_append]
    simp only [hread, Option.bind_eq_bind, Option.bind_some, hmark]
    rw [hitems _ _ _ _ _ hs hall (by omega)]
    simp

theorem Quoted.readString {s : String} {cs : List Char} (h : Quoted s cs) (rest : List Char) :
    readString (cs ++ rest) = some (s, rest) := by
  obtain ⟨body, heq, hread⟩ := h.readStringTail rest
  rw [heq]
  exact hread

/-- All members are read, each up to the mark behind it. -/
theorem membersComplete_succ {fuel : Nat} (hvalues : ValuesComplete fuel)
    (hmembers : MembersComplete fuel) : MembersComplete (fuel + 1) := by
  intro d members cs read rest h hall hfuel
  -- a member in front of a mark is read up to the mark, key first
  have hmember : ∀ {m : String × Json} {cs : List Char}, Member m cs → Within d m.2 →
      ∀ mark tail, goesOn mark = false → isBlank mark = false → 2 * cs.length ≤ fuel →
      ∃ value after, readString (skipBlanks (cs ++ mark :: tail)) = some (m.1, value) ∧
        ∃ cs', skipBlanks value = ':' :: cs' ∧ readValue fuel d cs' = some (m.2, after) ∧
          skipBlanks after = mark :: tail := by
    rintro _ _ ⟨hbefore, hkey, hafter, hx⟩ hwithin mark tail hends hblank hfuel
    next key x before quoted after cs =>
    rw [List.length_append, List.length_append, List.length_append, List.length_cons] at hfuel
    obtain ⟨after', hread, hmark⟩ := hvalues.padded hx hwithin mark tail hends hblank (by omega)
    refine ⟨after ++ ':' :: (cs ++ mark :: tail), after', ?_, cs ++ mark :: tail, ?_, hread, hmark⟩
    · rw [List.append_assoc, List.append_assoc, hkey.skipBlanks hbefore, hkey.readString]
      simp
    · rw [skipBlanks_append hafter, skipBlanks_cons (by decide)]
  rw [readMembers]
  cases h with
  | last hm =>
    obtain ⟨value, after, hkey, cs', hcolon, hread, hmark⟩ :=
      hmember hm (hall _ List.mem_cons_self) '\x7d' rest (by decide) (by decide) (by omega)
    simp only [hkey, Option.bind_eq_bind, Option.bind_some, hcolon, hread, hmark, List.reverse_cons]
  | @more m ms cs tail hm hs =>
    obtain ⟨hwithin, hall⟩ := List.forall_mem_cons.1 hall
    rw [List.length_append, List.length_cons] at hfuel
    obtain ⟨value, after, hkey, cs', hcolon, hread, hmark⟩ :=
      hmember hm hwithin ',' (tail ++ '\x7d' :: rest) (by decide) (by decide) (by omega)
    rw [List.append_assoc, List.cons_append]
    simp only [hkey, Option.bind_eq_bind, Option.bind_some, hcolon, hread, hmark]
    rw [hmembers _ _ _ _ _ hs hall (by omega)]
    simp

/-- The three readers take what the grammar has, if they have fuel for twice its length. -/
theorem readers_complete (fuel : Nat) :
    ValuesComplete fuel ∧ ItemsComplete fuel ∧ MembersComplete fuel := by
  induction fuel with
  | zero =>
    refine ⟨?_, ?_, ?_⟩
    · intro d x ws cs rest _ hx _ _ hfuel
      -- no spelling is empty, so none fits into no fuel
      obtain ⟨c, tail, rfl, -⟩ := hx.head
      simp at hfuel
    · intro d items cs read rest _ _ hfuel
      exact absurd hfuel (Nat.not_lt_zero _)
    · intro d members cs read rest _ _ hfuel
      exact absurd hfuel (Nat.not_lt_zero _)
  | succ fuel ih =>
    obtain ⟨hvalues, hitems, hmembers⟩ := ih
    exact ⟨valuesComplete_succ hitems hmembers, itemsComplete_succ hvalues hitems,
      membersComplete_succ hvalues hmembers⟩

/-! ## Whole texts -/

/-- A text is read as a document exactly if it spells the document, with blanks around it. -/
theorem parse?_eq_some_iff {text : String} {doc : Json} :
    parse? text = some doc ↔ Padded doc text.toList ∧ Within maxDepth doc := by
  unfold parse?
  dsimp only
  constructor
  · intro h
    split at h
    · next doc' rest hread =>
      split at h
      · next hrest =>
        cases h
        obtain ⟨hwithin, ws, body, hws, hbody, heq⟩ := (readers_sound _).1 _ _ _ _ hread
        refine ⟨?_, hwithin⟩
        rw [heq]
        exact .intro hws hbody (skipBlanks_eq_nil_iff.1 hrest)
      · cases h
    · cases h
  · rintro ⟨hpadded, hwithin⟩
    generalize text.toList = cs at hpadded
    obtain ⟨hbefore, hbody, hafter⟩ := hpadded
    next before body after =>
    -- blanks and the end of the text do not continue a number
    have hfollows : Follows after := by
      have hnil : Follows [] := by
        rintro _ ⟨⟩
      have hblanks := follows_blanks hafter hnil
      rwa [List.append_nil] at hblanks
    have hread := (readers_complete (2 * (before ++ (body ++ after)).length + 2)).1 maxDepth doc before
      body after hbefore hbody hwithin hfollows
      (by rw [List.length_append, List.length_append]; omega)
    rw [hread]
    dsimp only
    rw [if_pos (skipBlanks_eq_nil_iff.2 hafter)]

/-- A reader of texts: it gives no document that the text does not spell, and gives the one that it spells
wherever that one is not nested deeper than so many levels. -/
structure Reads (read : String → Option Json) (depth : Nat) : Prop where
  sound : ∀ {text doc}, read text = some doc → Padded doc text.toList
  complete : ∀ {text doc}, Padded doc text.toList → Within depth doc → read text = some doc

/-- The project has such a reader. -/
theorem reads_parse? : Reads parse? maxDepth where
  sound h := (parse?_eq_some_iff.1 h).1
  complete h hwithin := parse?_eq_some_iff.2 ⟨h, hwithin⟩

end Json

end LiveGraph
