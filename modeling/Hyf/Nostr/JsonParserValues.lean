import Hyf.Nostr.JsonParserTheorems

/-!
# The JSON subset of the parser (`hyf_link_nostr`)

`parse_eq_ok_iff` says exactly which texts the parser accepts: the texts of the grammar in which no
string has a pair of surrogates, each with its value. The induction is over the depth that the
parser may still go down; every level of arrays and objects costs a bracket, so the depth lasts.
-/

namespace Hyf.Nostr.JsonParser

open ByteCodec ByteCodec.TextParser JsonText

/-- The text of a value without pairs of surrogates. -/
def ItemText (value : JsonValue) (text : List Char) : Prop :=
  ∃ item : Syntax, item.hasPair = false ∧ text = item.text ∧ value = item.value

/-- The same with blanks in front. -/
def ValueText (value : JsonValue) (text : List Char) : Prop :=
  ∃ (before : Blank) (item : Syntax), item.hasPair = false ∧ text = before.val ++ item.text ∧
    value = item.value

/-- The same for less than `n` characters. -/
def ShortText (n : ℕ) (value : JsonValue) (text : List Char) : Prop :=
  ValueText value text ∧ text.length < n

/-! ## Loops over items -/

/-- The rounds of the array loop make items. -/
theorem exists_items {values : List JsonValue} {result : JsonValue} {text : List Char}
    (h : Iterates (ArrayRoundText ValueText) values result text) : ∃ items : Items,
      items.hasPair = false ∧ text = items.text ∧ result = .array (values ++ items.values) := by
  induction h with
  | stop h =>
    obtain ⟨value, _, _, ⟨before, item, hpair, rfl, rfl⟩, rfl, ⟨after, rfl⟩, rfl⟩ := h
    exact ⟨.last before item after, hpair, by rw [Items.text, List.append_assoc], rfl⟩
  | step h _ ih =>
    obtain ⟨value, _, _, ⟨before, item, hpair, rfl, rfl⟩, rfl, ⟨after, rfl⟩, rfl⟩ := h
    obtain ⟨items, hitems, rfl, rfl⟩ := ih
    refine ⟨.more before item after items, ?_, ?_, ?_⟩
    · rw [Items.hasPair, hpair, hitems, Bool.or_self]
    · simp only [Items.text, List.append_assoc, List.cons_append, List.nil_append]
    · rw [Items.values, List.append_assoc, List.singleton_append]

/-- Items are taken by the rounds of the array loop. -/
theorem iterates_items {n : ℕ} (items : Items) (hpair : items.hasPair = false)
    (hlen : items.text.length ≤ n) (values : List JsonValue) :
    Iterates (ArrayRoundText (ShortText n)) values (.array (values ++ items.values)) items.text := by
  cases items with
  | last before item after =>
    simp only [Items.text, List.length_append, List.length_cons, List.length_nil] at hlen
    refine .stop ⟨item.value, before.val ++ item.text, after.val ++ [']'],
      ⟨⟨before, item, hpair, rfl, rfl⟩, ?_⟩, ?_, ⟨after, rfl⟩, rfl⟩
    · rw [List.length_append]
      omega
    · rw [Items.text, List.append_assoc]
  | more before item after rest =>
    rw [Items.hasPair, Bool.or_eq_false_iff] at hpair
    simp only [Items.text, List.length_append, List.length_cons] at hlen
    have hle : rest.text.length ≤ n := by omega
    have hrest := iterates_items rest hpair.2 hle (values ++ [item.value])
    rw [List.append_assoc, List.singleton_append] at hrest
    have hfirst : ArrayRoundText (ShortText n) values (.inl (values ++ [item.value]))
        (before.val ++ item.text ++ (after.val ++ [','])) := by
      refine ⟨item.value, before.val ++ item.text, after.val ++ [','],
        ⟨⟨before, item, hpair.1, rfl, rfl⟩, ?_⟩, rfl, ⟨after, rfl⟩, rfl⟩
      rw [List.length_append]
      omega
    have hboth := Iterates.step hfirst hrest
    simp only [List.append_assoc, List.cons_append, List.nil_append] at hboth
    exact hboth

/-- The rounds of the object loop make members. -/
theorem exists_members {fields : List (String × JsonValue)} {result : JsonValue} {text : List Char}
    (h : Iterates (ObjectRoundText ValueText) fields result text) : ∃ members : Members,
      members.hasPair = false ∧ text = members.text ∧
      result = .object (fields ++ members.fields) := by
  induction h with
  | stop h =>
    obtain ⟨_, _, _, _, _, ⟨before, key, colon, hkey, rfl, rfl⟩, ⟨gap, item, hpair, rfl, rfl⟩, rfl,
      ⟨after, rfl⟩, rfl⟩ := h
    refine ⟨.last before key colon gap item after, ?_, ?_, rfl⟩
    · rw [Members.hasPair, hkey, hpair, Bool.or_self]
    · simp only [Members.text, keyText, List.append_assoc, List.cons_append, List.nil_append]
  | step h _ ih =>
    obtain ⟨_, _, _, _, _, ⟨before, key, colon, hkey, rfl, rfl⟩, ⟨gap, item, hpair, rfl, rfl⟩, rfl,
      ⟨after, rfl⟩, rfl⟩ := h
    obtain ⟨members, hmembers, rfl, rfl⟩ := ih
    refine ⟨.more before key colon gap item after members, ?_, ?_, ?_⟩
    · rw [Members.hasPair, hkey, hpair, hmembers, Bool.or_self, Bool.or_self]
    · simp only [Members.text, keyText, List.append_assoc, List.cons_append, List.nil_append]
    · rw [Members.fields, List.append_assoc, List.singleton_append]

/-- Members are taken by the rounds of the object loop. -/
theorem iterates_members {n : ℕ} (members : Members) (hpair : members.hasPair = false)
    (hlen : members.text.length ≤ n) (fields : List (String × JsonValue)) :
    Iterates (ObjectRoundText (ShortText n)) fields (.object (fields ++ members.fields))
      members.text := by
  cases members with
  | last before key colon gap item after =>
    rw [Members.hasPair, Bool.or_eq_false_iff] at hpair
    simp only [Members.text, keyText, List.length_append, List.length_cons, List.length_nil] at hlen
    refine .stop ⟨key.value, item.value, _, gap.val ++ item.text, after.val ++ ['}'],
      ⟨before, key, colon, hpair.1, rfl, rfl⟩, ⟨⟨gap, item, hpair.2, rfl, rfl⟩, ?_⟩, ?_, ⟨after, rfl⟩,
      rfl⟩
    · rw [List.length_append]
      omega
    · simp only [Members.text, keyText, List.append_assoc, List.cons_append, List.nil_append]
  | more before key colon gap item after rest =>
    rw [Members.hasPair, Bool.or_eq_false_iff, Bool.or_eq_false_iff] at hpair
    simp only [Members.text, keyText, List.length_append, List.length_cons] at hlen
    have hle : rest.text.length ≤ n := by omega
    have hrest := iterates_members rest hpair.2 hle (fields ++ [(key.value, item.value)])
    rw [List.append_assoc, List.singleton_append] at hrest
    have hfirst : ObjectRoundText (ShortText n) fields
        (.inl (fields ++ [(key.value, item.value)]))
        ((before.val ++ '"' :: (key.text ++ (colon.val ++ [':']))) ++
          (gap.val ++ item.text ++ (after.val ++ [',']))) := by
      refine ⟨key.value, item.value, _, gap.val ++ item.text, after.val ++ [','],
        ⟨before, key, colon, hpair.1.1, rfl, rfl⟩, ⟨⟨gap, item, hpair.1.2, rfl, rfl⟩, ?_⟩, rfl,
        ⟨after, rfl⟩, rfl⟩
      rw [List.length_append]
      omega
    have hboth := Iterates.step hfirst hrest
    simp only [List.append_assoc, List.cons_append, List.nil_append] at hboth
    simp only [Members.text, keyText, List.append_assoc, List.cons_append]
    exact hboth

/-- A round that goes on takes something. -/
theorem arrayRound_ne_nil {V : JsonValue → List Char → Prop} (values next : List JsonValue)
    (text : List Char) (h : ArrayRoundText V values (.inl next) text) : text ≠ [] := by
  obtain ⟨value, first, second, -, rfl, ⟨after, rfl⟩, -⟩ := h
  simp

/-- A round that goes on takes something. -/
theorem objectRound_ne_nil {V : JsonValue → List Char → Prop}
    (fields next : List (String × JsonValue)) (text : List Char)
    (h : ObjectRoundText V fields (.inl next) text) : text ≠ [] := by
  obtain ⟨key, value, head, first, second, -, -, rfl, ⟨after, rfl⟩, -⟩ := h
  simp

/-- Brackets with nothing but blanks between them, or a loop over items. -/
def bracketed (opening closing : UInt8) (empty : JsonValue) (rounds : JsonParser JsonValue) :
    JsonParser JsonValue := do
  expectByte opening
  skipWs
  if ← consumeByte closing then return empty
  else rounds

section Composite

variable {n : ℕ} {parseValue rounds : JsonParser JsonValue} {opening closing : UInt8}
  {empty : JsonValue}

/-- The items have an opening bracket less to go. -/
theorem derives_bracketed (hopening : opening < 128) (hclosing : closing < 128)
    {R : JsonValue → List Char → Prop} (h : Derives n rounds R) :
    Derives (n + 1) (bracketed opening closing empty rounds) fun value text => ∃ blank : Blank,
      (text = Char.ofNat opening.toNat :: (blank.val ++ [Char.ofNat closing.toNat]) ∧
        value = empty) ∨
      ∃ inner, R value inner ∧ text = Char.ofNat opening.toNat :: (blank.val ++ inner) := by
  intro chars hlen
  apply (derives_expectByte (n + 1) hopening chars hlen).bind
  rintro _ _ tail rfl rfl
  rw [List.length_append, List.length_singleton] at hlen
  have htail : tail.length < n := by omega
  apply (derives_skipWs n tail htail).bind
  rintro _ _ tail rfl ⟨blank, rfl⟩
  rw [List.length_append] at htail
  have htail : tail.length < n := by omega
  apply (derives_consumeByte n hclosing tail htail).bind
  rintro found _ tail rfl rfl
  cases found with
  | true => exact DerivesAt.pure ⟨blank, .inl ⟨rfl, rfl⟩⟩
  | false => exact (h tail htail).mono fun value inner hinner _ => ⟨blank, .inr ⟨inner, hinner, rfl⟩⟩

/-- Brackets with nothing but blanks in between. -/
theorem takes_bracketed_empty (hopening : opening < 128) (hclosing : closing < 128)
    (hcloses : closes (Char.ofNat closing.toNat)) (blank : Blank) :
    Takes (bracketed opening closing empty rounds)
      (Char.ofNat opening.toNat :: (blank.val ++ [Char.ofNat closing.toNat])) empty anyRest := by
  intro rest _
  have hskip := takes_skipWs blank (Char.ofNat closing.toNat :: rest)
    (stopsAt_cons (isBlank_of_closes hcloses))
  have hconsume : (consumeByte closing : JsonParser Bool)
      (utf8Bytes (Char.ofNat closing.toNat :: rest)) = .ok true (utf8Bytes rest) :=
    takes_consumeByte hclosing rest trivial
  rw [List.cons_append, List.append_assoc, List.singleton_append]
  refine (run_bind_of_ok (takes_expectByte hopening _ trivial) _).trans ?_
  refine (run_bind_of_ok hskip _).trans ?_
  exact run_bind_of_ok hconsume _

/-- Brackets around what the rounds take. -/
theorem takes_bracketed (hopening : opening < 128) (hclosing : closing < 128) {blank : Blank}
    {inner : List Char} {value : JsonValue} (h : Takes rounds inner value anyRest)
    (hinner : BeginsValue inner)
    (hcloses : opens (Char.ofNat closing.toNat) = false) :
    Takes (bracketed opening closing empty rounds)
      (Char.ofNat opening.toNat :: (blank.val ++ inner)) value anyRest := by
  intro rest _
  have hskip := takes_skipWs blank (inner ++ rest) ((hinner.append rest).stopsAt isBlank_of_opens)
  have hother : (consumeByte closing : JsonParser Bool) (utf8Bytes (inner ++ rest)) =
      .ok false (utf8Bytes (inner ++ rest)) := by
    exact takes_consumeByte_ne hclosing _ fun tail => (hinner.append rest).ne_cons hcloses tail
  rw [List.cons_append, List.append_assoc]
  refine (run_bind_of_ok (takes_expectByte hopening _ trivial) _).trans ?_
  refine (run_bind_of_ok hskip _).trans ?_
  refine (run_bind_of_ok hother _).trans ?_
  exact h rest trivial

/-- An array that was parsed is one of the grammar. -/
theorem derives_parseArray (h : Derives n parseValue ValueText) :
    Derives (n + 1) (parseArray parseValue) ItemText := by
  apply (derives_bracketed (by decide) (by decide)
    (derives_loopRest (derives_arrayRound h) arrayRound_ne_nil [])).mono
  rintro value _ ⟨blank, ⟨rfl, rfl⟩ | ⟨inner, hrounds, rfl⟩⟩
  · exact ⟨.emptyArray blank, rfl, rfl, rfl⟩
  · obtain ⟨items, hpair, rfl, rfl⟩ := exists_items hrounds
    refine ⟨.array (items.pad blank), ?_, ?_, ?_⟩
    · rw [Syntax.hasPair, Items.hasPair_pad, hpair]
    · rw [Syntax.text, Items.text_pad]
      rfl
    · rw [Syntax.value, Items.values_pad, List.nil_append]

/-- An object that was parsed is one of the grammar. -/
theorem derives_parseObject (h : Derives n parseValue ValueText) :
    Derives (n + 1) (parseObject parseValue) ItemText := by
  apply (derives_bracketed (by decide) (by decide)
    (derives_loopRest (derives_objectRound h) objectRound_ne_nil [])).mono
  rintro value _ ⟨blank, ⟨rfl, rfl⟩ | ⟨inner, hrounds, rfl⟩⟩
  · exact ⟨.emptyObject blank, rfl, rfl, rfl⟩
  · obtain ⟨members, hpair, rfl, rfl⟩ := exists_members hrounds
    refine ⟨.object (members.pad blank), ?_, ?_, ?_⟩
    · rw [Syntax.hasPair, Members.hasPair_pad, hpair]
    · rw [Syntax.text, Members.text_pad]
      rfl
    · rw [Syntax.value, Members.fields_pad, List.nil_append]

/-- Whichever character comes next, what was parsed is a value of the grammar. -/
theorem derives_parseValueAt (h : Derives n parseValue ValueText) (next : Option UInt8) :
    Derives (n + 1) (parseValueAt parseValue next) ItemText := by
  intro chars hlen
  cases next with
  | none => exact DerivesAt.throw _
  | some byte =>
    have hliteral : ∀ (literal : List UInt8) (item : Syntax), item.hasPair = false →
        (∀ byte ∈ literal, byte < 128) →
        (literal.map fun byte => Char.ofNat byte.toNat) = item.text →
        DerivesAt chars (parseLiteral literal item.value) ItemText := by
      intro literal item hpair hascii htext
      apply (derives_parseLiteral (n + 1) item.value hascii chars hlen).mono
      rintro value _ ⟨rfl, rfl⟩ -
      exact ⟨item, hpair, htext, rfl⟩
    apply DerivesAt.ite
    · exact fun _ => hliteral _ .null rfl (by simp) (by decide)
    intro _
    apply DerivesAt.ite
    · exact fun _ => hliteral _ .literalTrue rfl (by simp) (by decide)
    intro _
    apply DerivesAt.ite
    · exact fun _ => hliteral _ .literalFalse rfl (by simp) (by decide)
    intro _
    apply DerivesAt.ite
    · intro _
      apply (derives_parseString (n + 1) chars hlen).bind
      rintro value _ tail rfl ⟨body, hpair, rfl, rfl⟩
      refine DerivesAt.pure ⟨.string body, hpair, ?_, rfl⟩
      rw [List.append_nil, Syntax.text]
    intro _
    apply DerivesAt.ite
    · exact fun _ => derives_parseArray h chars hlen
    intro _
    apply DerivesAt.ite
    · exact fun _ => derives_parseObject h chars hlen
    intro _
    apply DerivesAt.ite
    · intro _
      apply (derives_parseNumber (n + 1) chars hlen).mono
      rintro value _ ⟨numeral, rfl, rfl⟩ -
      exact ⟨.number numeral, rfl, rfl, rfl⟩
    · exact fun _ => DerivesAt.throw _

end Composite

/-- A value that was parsed is one of the grammar, at every depth. -/
theorem derives_parseValue (depth : ℕ) : Derives depth (parseValue depth) ValueText := by
  induction depth with
  | zero => exact fun chars hlen => absurd hlen (Nat.not_lt_zero _)
  | succ depth ih =>
    apply (derives_skipWs (depth + 1)).bind
    rintro _ _ ⟨before, rfl⟩ chars hlen
    apply (derivesAt_peek_bind (G := ItemText) ?_ ?_ ?_).mono
    · rintro value _ ⟨item, hpair, rfl, rfl⟩ -
      exact ⟨before, item, hpair, rfl, rfl⟩
    · exact derives_parseValueAt ih none [] (Nat.succ_pos _)
    · exact fun byte _ _ _ => derives_parseValueAt ih (some byte) chars hlen
    · exact fun byte _ _ _ _ _ => derives_parseValueAt ih (some byte) chars hlen

/-! ## Every value is read -/

/-- A digit begins a number. -/
theorem parseValueAt_digit {parseValue : JsonParser JsonValue} {byte : UInt8} (hbyte : byte < 128)
    (hdigit : isDigit (Char.ofNat byte.toNat)) :
    parseValueAt parseValue (some byte) = parseNumber := by
  have hkind : ∀ byte : UInt8, byte < 128 → isDigit (Char.ofNat byte.toNat) → byte ≠ 0x6e ∧
      byte ≠ 0x74 ∧ byte ≠ 0x66 ∧ byte ≠ 0x22 ∧ byte ≠ 0x5b ∧ byte ≠ 0x7b ∧ isDigitByte byte := by
    apply forall_byte
    decide
  have hne := hkind byte hbyte hdigit
  unfold parseValueAt
  simp only [hne, if_false, if_true]

section Reading

variable {n : ℕ} {parseValue : JsonParser JsonValue}
  (h : ∀ value text, ShortText n value text → Takes parseValue text value (StopsAt isDigit))

include h

/-- An array of the grammar is parsed, if its items can be. -/
theorem takes_parseArray {items : Items} (hpair : items.hasPair = false)
    (hlen : items.text.length ≤ n) :
    Takes (parseArray parseValue) ('[' :: items.text) (.array items.values) anyRest := by
  obtain ⟨blank, items, rfl, hbegins⟩ := items.exists_pad
  rw [Items.hasPair_pad] at hpair
  rw [Items.text_pad, List.length_append] at hlen
  have hle : items.text.length ≤ n := by omega
  have hrounds := iterates_items items hpair hle []
  have hloop := takes_loopRest (takes_arrayRound h) arrayRound_ne_nil hrounds
  rw [Items.text_pad, Items.values_pad]
  exact takes_bracketed (by decide) (by decide) hloop hbegins (by decide)

/-- An object of the grammar is parsed, if its members can be. -/
theorem takes_parseObject {members : Members} (hpair : members.hasPair = false)
    (hlen : members.text.length ≤ n) :
    Takes (parseObject parseValue) ('{' :: members.text) (.object members.fields) anyRest := by
  obtain ⟨blank, members, rfl, hbegins⟩ := members.exists_pad
  rw [Members.hasPair_pad] at hpair
  rw [Members.text_pad, List.length_append] at hlen
  have hle : members.text.length ≤ n := by omega
  have hrounds := iterates_members members hpair hle []
  have hloop := takes_loopRest (takes_objectRound h) objectRound_ne_nil hrounds
  rw [Members.text_pad, Members.fields_pad]
  exact takes_bracketed (by decide) (by decide) hloop hbegins (by decide)

/-- A value of the grammar is parsed, one level down. -/
theorem takes_item (item : Syntax) (hpair : item.hasPair = false) (hlen : item.text.length ≤ n + 1) :
    Takes (peek >>= parseValueAt parseValue) item.text item.value (StopsAt isDigit) := by
  have hany : ∀ {parser : JsonParser JsonValue} {text : List Char} {value : JsonValue},
      Takes parser text value anyRest → Takes parser text value (StopsAt isDigit) :=
    fun htakes => htakes.mono fun _ _ => trivial
  cases item with
  | null =>
    exact takes_peek_bind (show (0x6e : UInt8) < 128 by decide)
      (hany (takes_parseLiteral [0x6e, 0x75, 0x6c, 0x6c] .null (by simp)))
  | literalTrue =>
    exact takes_peek_bind (show (0x74 : UInt8) < 128 by decide)
      (hany (takes_parseLiteral [0x74, 0x72, 0x75, 0x65] (.bool true) (by simp)))
  | literalFalse =>
    exact takes_peek_bind (show (0x66 : UInt8) < 128 by decide)
      (hany (takes_parseLiteral [0x66, 0x61, 0x6c, 0x73, 0x65] (.bool false) (by simp)))
  | number numeral =>
    obtain ⟨c, tail, htext, hc⟩ : ∃ c tail, numeral.digits = c :: tail ∧ isDigit c := by
      cases hdigits : numeral.digits with
      | nil => exact absurd hdigits numeral.ne_nil
      | cons c tail => exact ⟨c, tail, rfl, numeral.isDigit_of_mem c (hdigits ▸ List.mem_cons_self)⟩
    obtain ⟨byte, hbyte, rfl⟩ := exists_byte (isDigit_lt hc)
    have htakes := takes_parseNumber numeral
    rw [htext] at htakes
    rw [Syntax.text, htext]
    apply takes_peek_bind hbyte
    rw [parseValueAt_digit hbyte hc]
    exact htakes
  | string body =>
    exact takes_peek_bind (show (0x22 : UInt8) < 128 by decide)
      (hany ((takes_parseString ⟨body, hpair, rfl, rfl⟩).bind_pure rfl))
  | emptyArray blank =>
    exact takes_peek_bind (show (0x5b : UInt8) < 128 by decide)
      (hany (takes_bracketed_empty (by decide) (by decide) rfl blank))
  | array items =>
    rw [Syntax.text, List.length_cons] at hlen
    exact takes_peek_bind (show (0x5b : UInt8) < 128 by decide)
      (hany (takes_parseArray h hpair (by omega)))
  | emptyObject blank =>
    exact takes_peek_bind (show (0x7b : UInt8) < 128 by decide)
      (hany (takes_bracketed_empty (by decide) (by decide) rfl blank))
  | object members =>
    rw [Syntax.text, List.length_cons] at hlen
    exact takes_peek_bind (show (0x7b : UInt8) < 128 by decide)
      (hany (takes_parseObject h hpair (by omega)))

end Reading

/-- A value of the grammar is parsed where the depth suffices. -/
theorem takes_parseValue (depth : ℕ) (value : JsonValue) (text : List Char)
    (h : ShortText depth value text) : Takes (parseValue depth) text value (StopsAt isDigit) := by
  induction depth generalizing value text with
  | zero => exact absurd h.2 (Nat.not_lt_zero _)
  | succ depth ih =>
    obtain ⟨⟨before, item, hpair, rfl, rfl⟩, hlen⟩ := h
    rw [List.length_append] at hlen
    have hle : item.text.length ≤ depth + 1 := by omega
    exact (takes_skipWs before).bind (takes_item ih item hpair hle)
      fun rest _ => item.stopsAt_isBlank rest

/-! ## Whole texts -/

/-- A whole text that was parsed is a document of the grammar. -/
theorem derives_parseAll (depth : ℕ) (chars : List Char) (hlen : chars.length < depth) :
    EndsWith (parseAll depth) (utf8Bytes chars)
      (fun value _ => ∃ document : Document, document.item.hasPair = false ∧
        document.text = chars ∧ value = document.value)
      fun _ _ => True := by
  apply EndsWith.bind (derives_parseValue depth chars hlen)
  rintro value _ ⟨_, tail, rfl, rfl, before, item, hpair, rfl, rfl⟩
  rw [List.length_append] at hlen
  have htail : tail.length < depth := by omega
  apply EndsWith.bind (derives_skipWs depth tail htail)
  rintro _ _ ⟨_, tail, rfl, rfl, after, rfl⟩
  apply EndsWith.get_bind
  by_cases hend : utf8Bytes tail ≠ []
  · rw [if_pos hend]
    exact EndsWith.throw trivial
  · rw [if_neg hend]
    obtain rfl : tail = [] := utf8Bytes_injective (not_not.mp hend)
    refine EndsWith.pure ⟨⟨before, item, after⟩, hpair, ?_, rfl⟩
    rw [Document.text, List.append_nil, List.append_assoc]

/-- A document of the grammar is parsed as a whole. -/
theorem run_parseAll {depth : ℕ} {document : Document} (hpair : document.item.hasPair = false)
    (hlen : document.text.length < depth) :
    parseAll depth (utf8Bytes document.text) = .ok document.value [] := by
  obtain ⟨before, item, after⟩ := document
  have hshort : (before.val ++ item.text).length < depth := by
    simp only [Document.text, List.length_append] at hlen ⊢
    omega
  have hvalue := takes_parseValue depth item.value (before.val ++ item.text)
    ⟨⟨before, item, hpair, rfl, rfl⟩, hshort⟩ after.val (stopsAt_isDigit_val after)
  have hskip : skipWs (utf8Bytes after.val) = .ok () [] := by
    have htakes := takes_skipWs after [] stopsAt_nil
    rwa [List.append_nil] at htakes
  rw [Document.text, ← List.append_assoc, parseAll, run_bind_of_ok hvalue]
  exact run_bind_of_ok hskip _

/-- The parser accepts exactly the texts whose strings have no pair of surrogates. -/
theorem parse_eq_ok_iff (input : String) (value : JsonValue) :
    parse input = .ok value ↔ ∃ document : Document, document.item.hasPair = false ∧
      document.text = input.toList ∧ value = document.value := by
  have hlen := length_le_utf8Bytes input.toList
  rw [parse, asBytes_eq]
  constructor
  · intro h
    have hends := derives_parseAll ((utf8Bytes input.toList).length + 1) input.toList (by omega)
    unfold EndsWith at hends
    split at hends
    · rename_i hrun
      rw [hrun] at h
      cases h
      exact hends
    · rename_i hrun
      rw [hrun] at h
      cases h
    · exact hends.elim
  · rintro ⟨document, hpair, htext, rfl⟩
    rw [← htext, run_parseAll hpair (by rw [htext]; omega)]

/-- Every other text is rejected with an error. -/
theorem parse_ne_panic (input : String) : parse input ≠ .error .panic := by
  have hlen := length_le_utf8Bytes input.toList
  have hends := derives_parseAll ((utf8Bytes input.toList).length + 1) input.toList (by omega)
  rw [parse, asBytes_eq]
  intro h
  split at h
  · cases h
  · rename_i hrun
    cases h
    exact hends.ne_panic _ hrun

/-- The value that JSON gives to a text whose numbers are unsigned 64-bit integers. -/
def IsJson (input : String) (value : JsonValue) : Prop :=
  ∃ document : Document, document.text = input.toList ∧ document.item.hasLeadingZero = false ∧
    document.value = value

/-- The parser reads a text as JSON does, unless the text escapes a character as a pair of surrogates,
which is rejected, or has a number with a zero in front, which is accepted; where both happen the
text is rejected, as it should be. -/
theorem parse_eq_json_iff (input : String) :
    (parse input ≠ .error .panic ∧ ∀ value, parse input = .ok value ↔ IsJson input value) ↔
      ∀ document : Document, document.text = input.toList →
        (document.item.hasPair ↔ document.item.hasLeadingZero) := by
  constructor
  · rintro ⟨-, hparse⟩ document htext
    have haccepted : document.item.hasPair = false ↔ document.item.hasLeadingZero = false := by
      constructor
      · intro hpair
        have hok := (parse_eq_ok_iff input document.value).mpr ⟨document, hpair, htext, rfl⟩
        obtain ⟨other, hother, hzero, -⟩ := (hparse _).mp hok
        rwa [Document.text_injective (htext.trans hother.symm)]
      · intro hzero
        have hok := (hparse document.value).mpr ⟨document, htext, hzero, rfl⟩
        obtain ⟨other, hpair, hother, -⟩ := (parse_eq_ok_iff input _).mp hok
        rwa [Document.text_injective (htext.trans hother.symm)]
    rw [← not_iff_not, Bool.not_eq_true, Bool.not_eq_true]
    exact haccepted
  · intro hagree
    refine ⟨parse_ne_panic input, fun value => ?_⟩
    have hfalse : ∀ document : Document, document.text = input.toList →
        (document.item.hasPair = false ↔ document.item.hasLeadingZero = false) := by
      intro document htext
      have hboth := hagree document htext
      rwa [← not_iff_not, Bool.not_eq_true, Bool.not_eq_true] at hboth
    rw [parse_eq_ok_iff]
    constructor
    · rintro ⟨document, hpair, htext, rfl⟩
      exact ⟨document, htext, (hfalse document htext).mp hpair, rfl⟩
    · rintro ⟨document, htext, hzero, rfl⟩
      exact ⟨document, (hfalse document htext).mpr hzero, htext, rfl⟩

/-- The string `"\ud83d\ude00"` is rejected, and `007` is accepted. -/
theorem parse_surrogates_and_zeros :
    (¬∀ value, parse "\"\\ud83d\\ude00\"" = .ok value ↔ IsJson "\"\\ud83d\\ude00\"" value) ∧
      ¬∀ value, parse "007" = .ok value ↔ IsJson "007" value := by
  constructor
  · intro hparse
    have hrejected : parse "\"\\ud83d\\ude00\"" = fail .malformedMessage := by rfl
    have hjson : IsJson "\"\\ud83d\\ude00\"" (.string (String.ofList [Char.ofNat 0x1f600])) :=
      ⟨⟨noBlank, .string [.pair ⟨⟨'d', rfl⟩, ⟨'8', rfl⟩, ⟨'3', rfl⟩, ⟨'d', rfl⟩⟩
        ⟨⟨'d', rfl⟩, ⟨'e', rfl⟩, ⟨'0', rfl⟩, ⟨'0', rfl⟩⟩ rfl rfl], noBlank⟩, by decide, rfl, rfl⟩
    have haccepted := (hparse _).mpr hjson
    rw [hrejected] at haccepted
    cases haccepted
  · intro hparse
    have haccepted : parse "007" = .ok (.number 7) := by rfl
    obtain ⟨document, htext, hzero, -⟩ := (hparse _).mp haccepted
    have hnumber : document = ⟨noBlank, .number ⟨['0', '0', '7'], by simp [isDigit], by decide, by decide⟩,
        noBlank⟩ := Document.text_injective (htext.trans (by decide))
    rw [hnumber] at hzero
    cases hzero

end Hyf.Nostr.JsonParser
