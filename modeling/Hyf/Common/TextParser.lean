import Hyf.Common.EndsWith
import Hyf.Common.Text

/-!
# Parsers over the rest of a text

A recursive-descent parser walks over the bytes of a text. Its state is what is left of them, and as
long as it stops between characters that is the encoding of a list of characters. `Derives` says of
a parser that it does not panic and that what it takes is in a language, `Takes` that it does take a
text of the language. Both have a rule for each way of composing parsers, so that a grammar is
compared with a parser one construct at a time.
-/

namespace ByteCodec

/-- The state is `&input[position..]`. -/
abbrev TextParser (ε : Type) := EStateM (Fault ε) (List UInt8)

namespace TextParser

variable {ε α β : Type}

section Programs

/-- The byte at the index, if there is one. -/
def peek : TextParser ε (Option UInt8) := do
  return (← get).head?

/-- `position += count`. -/
def advance (count : ℕ) : TextParser ε Unit := modify fun rest => rest.drop count

/-- `peek`, and a step over the byte. -/
def nextByte : TextParser ε (Option UInt8) := do
  match ← peek with
  | none => return none
  | some byte => do
    advance 1
    return some byte

/-- Steps over the byte if it is the next one, and tells whether it was. -/
def consumeByte (byte : UInt8) : TextParser ε Bool := do
  if (← peek) = some byte then do
    advance 1
    return true
  else return false

/-- `loop { .. }`, of which `body` is one round: it goes on with a new value of the variables or
returns from the loop. -/
def loop (body : α → TextParser ε (α ⊕ β)) : ℕ → α → TextParser ε β
  | 0, _ => throw .panic
  | rounds + 1, a => do
    match ← body a with
    | .inl a => loop body rounds a
    | .inr b => return b

/-- A loop whose rounds all take something. -/
def loopRest (body : α → TextParser ε (α ⊕ β)) (a : α) : TextParser ε β := do
  let rest ← get
  loop body (rest.length + 1) a

end Programs

/-! ## What a parser takes is in a language -/

/-- On `chars` the parser reports an error, or takes a text at their front for which it returns a value
that `G` allows. -/
def DerivesAt (chars : List Char) (parser : TextParser ε α) (G : α → List Char → Prop) : Prop :=
  EndsWith parser (utf8Bytes chars)
    (fun a rest => ∃ text tail, chars = text ++ tail ∧ rest = utf8Bytes tail ∧ G a text)
    fun _ _ => True

/-- So it is on every list of less than `n` characters. -/
def Derives (n : ℕ) (parser : TextParser ε α) (G : α → List Char → Prop) : Prop :=
  ∀ chars : List Char, chars.length < n → DerivesAt chars parser G

section Derives

variable {n : ℕ} {chars : List Char} {G G' : α → List Char → Prop} {H : β → List Char → Prop}
  {parser : TextParser ε α}

/-- A grammar may be weakened on the fronts of the text. -/
theorem DerivesAt.mono (h : DerivesAt chars parser G)
    (hG : ∀ a text, G a text → text <+: chars → G' a text) : DerivesAt chars parser G' := by
  apply EndsWith.mono h
  · rintro a rest ⟨text, tail, rfl, hrest, ha⟩
    exact ⟨text, tail, rfl, hrest, hG a text ha (List.prefix_append text tail)⟩
  · exact fun _ _ _ => trivial

/-- A grammar may be weakened. -/
theorem Derives.mono (h : Derives n parser G) (hG : ∀ a text, G a text → G' a text) :
    Derives n parser G' :=
  fun chars hlen => (h chars hlen).mono fun a text ha _ => hG a text ha

/-- A value is derived from the empty text. -/
theorem DerivesAt.pure {a : α} (h : G a []) : DerivesAt chars (Pure.pure a : TextParser ε α) G :=
  EndsWith.pure ⟨[], chars, rfl, rfl, h⟩

/-- A failure derives nothing. -/
theorem DerivesAt.throw (error : ε) :
    DerivesAt chars (throw (.error error) : TextParser ε α) G :=
  EndsWith.throw trivial

/-- The second parser goes on with what the first one left. -/
theorem DerivesAt.bind {next : α → TextParser ε β} (h : DerivesAt chars parser G)
    (hnext : ∀ a text tail, chars = text ++ tail → G a text →
      DerivesAt tail (next a) fun b second => H b (text ++ second)) :
    DerivesAt chars (parser >>= next) H := by
  apply EndsWith.bind h
  rintro a rest ⟨text, tail, rfl, rfl, ha⟩
  apply EndsWith.mono (hnext a text tail rfl ha)
  · rintro b rest ⟨second, tail, rfl, rfl, hb⟩
    exact ⟨text ++ second, tail, (List.append_assoc ..).symm, rfl, hb⟩
  · exact fun _ _ _ => trivial

/-- What two parsers take is derived one behind the other. -/
theorem Derives.bind {next : α → TextParser ε β} (h : Derives n parser G)
    (hnext : ∀ a text, G a text → Derives n (next a) fun b second => H b (text ++ second)) :
    Derives n (parser >>= next) H := by
  intro chars hlen
  apply (h chars hlen).bind
  rintro a text tail rfl ha
  rw [List.length_append] at hlen
  exact hnext a text ha tail (by omega)

/-- The branch that is taken derives. -/
theorem DerivesAt.ite {c : Prop} [Decidable c] {other : TextParser ε α}
    (h : c → DerivesAt chars parser G) (h' : ¬c → DerivesAt chars other G) :
    DerivesAt chars (if c then parser else other) G := by
  by_cases hc : c
  · rw [if_pos hc]
    exact h hc
  · rw [if_neg hc]
    exact h' hc

end Derives

/-! ### The next byte -/

/-- What a parser sees of the next character: the character itself when it is below 128, and otherwise
a byte that is not. -/
theorem head_utf8Bytes (chars : List Char) :
    (chars = [] ∧ (utf8Bytes chars).head? = none) ∨
    (∃ byte tail, byte < 128 ∧ chars = Char.ofNat byte.toNat :: tail ∧
      utf8Bytes chars = byte :: utf8Bytes tail) ∨
    ∃ c tail byte bytes, 128 ≤ byte ∧ 128 ≤ c.toNat ∧ chars = c :: tail ∧
      utf8Bytes chars = byte :: bytes := by
  cases chars with
  | nil => exact .inl ⟨rfl, rfl⟩
  | cons c tail =>
    right
    rw [utf8Bytes_cons]
    obtain ⟨hlt, hc⟩ | ⟨hle, byte, bytes, hbyte, hc⟩ := utf8EncodeChar_cases c
    · left
      have hnat : (UInt8.ofNat c.toNat).toNat = c.toNat := by
        rw [UInt8.toNat_ofNat', Nat.mod_eq_of_lt (by omega)]
      refine ⟨UInt8.ofNat c.toNat, tail, ?_, ?_, ?_⟩
      · rw [UInt8.lt_iff_toNat_lt, hnat]
        exact hlt
      · rw [hnat, Char.ofNat_toNat]
      · rw [hc, List.singleton_append]
    · right
      exact ⟨c, tail, byte, bytes ++ utf8Bytes tail, hbyte, hle, rfl, by rw [hc, List.cons_append]⟩

/-- A character below 128 has one byte. -/
theorem utf8Bytes_ascii {byte : UInt8} (h : byte < 128) (tail : List Char) :
    utf8Bytes (Char.ofNat byte.toNat :: tail) = byte :: utf8Bytes tail := by
  rw [utf8Bytes_cons, utf8EncodeChar_ofNat byte h, List.singleton_append]

/-- A run of bytes below 128 is a run of characters. -/
theorem takeWhile_utf8Bytes {p : UInt8 → Bool} {q : Char → Bool}
    (hascii : ∀ byte, byte < 128 → p byte = q (Char.ofNat byte.toNat))
    (hother : ∀ byte, 128 ≤ byte → p byte = false) (hq : ∀ c, q c → c.toNat < 128)
    (chars : List Char) :
    (utf8Bytes chars).takeWhile p = utf8Bytes (chars.takeWhile q) ∧
      (utf8Bytes chars).dropWhile p = utf8Bytes (chars.dropWhile q) := by
  induction chars with
  | nil => exact ⟨rfl, rfl⟩
  | cons c chars ih =>
    rw [utf8Bytes_cons, List.takeWhile_cons, List.dropWhile_cons]
    obtain ⟨hlt, hc⟩ | ⟨hle, byte, bytes, hbyte, hc⟩ := utf8EncodeChar_cases c
    · have hnat : (UInt8.ofNat c.toNat).toNat = c.toNat := by
        rw [UInt8.toNat_ofNat', Nat.mod_eq_of_lt (by omega)]
      have hp : p (UInt8.ofNat c.toNat) = q c := by
        rw [hascii _ (by rw [UInt8.lt_iff_toNat_lt, hnat]; exact hlt), hnat, Char.ofNat_toNat]
      rw [hc, List.singleton_append, List.takeWhile_cons, List.dropWhile_cons, hp]
      by_cases hqc : q c
      · rw [if_pos hqc, if_pos hqc, if_pos hqc, if_pos hqc, ih.1, ih.2, utf8Bytes_cons, hc]
        exact ⟨rfl, rfl⟩
      · rw [if_neg hqc, if_neg hqc, if_neg hqc, if_neg hqc, utf8Bytes_cons, hc]
        exact ⟨rfl, rfl⟩
    · have hqc : ¬q c := fun hqc => absurd (hq c hqc) (not_lt.mpr hle)
      have hp : ¬p byte := by
        rw [hother byte hbyte]
        exact Bool.false_ne_true
      rw [if_neg hqc, if_neg hqc, hc, List.cons_append, List.takeWhile_cons, List.dropWhile_cons,
        if_neg hp, if_neg hp, utf8Bytes_cons, hc]
      exact ⟨rfl, rfl⟩

section Bytes

variable {n : ℕ} {chars : List Char} {G : α → List Char → Prop}

/-- A parser that looks at the next byte. -/
theorem derivesAt_peek_bind {next : Option UInt8 → TextParser ε α}
    (hend : DerivesAt [] (next none) G)
    (hascii : ∀ byte tail, byte < 128 → chars = Char.ofNat byte.toNat :: tail →
      DerivesAt chars (next (some byte)) G)
    (hother : ∀ byte c tail, 128 ≤ byte → 128 ≤ c.toNat → chars = c :: tail →
      DerivesAt chars (next (some byte)) G) :
    DerivesAt chars (peek >>= next) G := by
  show EndsWith (next (utf8Bytes chars).head?) (utf8Bytes chars) _ _
  obtain ⟨rfl, -⟩ | ⟨byte, tail, hbyte, hchars, hhead⟩ |
    ⟨c, tail, byte, bytes, hbyte, hc, hchars, hhead⟩ := head_utf8Bytes chars
  · exact hend
  · rw [hhead, List.head?_cons, ← hhead]
    exact hascii byte tail hbyte hchars
  · rw [hhead, List.head?_cons, ← hhead]
    exact hother byte c tail hbyte hc hchars

/-- A step over a byte below 128 takes its character. -/
theorem derivesAt_advance_one (byte : UInt8) (hbyte : byte < 128) (tail : List Char) :
    DerivesAt (Char.ofNat byte.toNat :: tail) (advance 1 : TextParser ε Unit)
      fun _ text => text = [Char.ofNat byte.toNat] := by
  refine EndsWith.of_ok rfl ⟨[Char.ofNat byte.toNat], tail, rfl, ?_, rfl⟩
  rw [utf8Bytes_ascii hbyte]
  rfl

/-- A parser that takes the next byte, and fails where it is not a character. -/
theorem derivesAt_nextByte_bind {next : Option UInt8 → TextParser ε α}
    (hend : DerivesAt [] (next none) G)
    (hascii : ∀ byte tail, byte < 128 → chars = Char.ofNat byte.toNat :: tail →
      DerivesAt tail (next (some byte)) fun a text => G a (Char.ofNat byte.toNat :: text))
    (hother : ∀ byte, 128 ≤ byte → ∃ error : ε, next (some byte) = throw (.error error)) :
    DerivesAt chars (nextByte >>= next) G := by
  show EndsWith (nextByte >>= next) (utf8Bytes chars) _ _
  obtain ⟨rfl, -⟩ | ⟨byte, tail, hbyte, hchars, hhead⟩ | ⟨c, tail, byte, bytes, hbyte, -, -, hhead⟩ :=
    head_utf8Bytes chars
  · exact hend
  · have hrun : (nextByte : TextParser ε _) (utf8Bytes chars) = .ok (some byte) (utf8Bytes tail) := by
      rw [hhead]
      rfl
    rw [EndsWith, run_bind_of_ok hrun]
    apply EndsWith.mono (hascii byte tail hbyte hchars)
    · rintro a rest ⟨text, tail, rfl, rfl, ha⟩
      exact ⟨_ :: text, tail, hchars, rfl, ha⟩
    · exact fun _ _ _ => trivial
  · have hrun : (nextByte : TextParser ε _) (utf8Bytes chars) = .ok (some byte) bytes := by
      rw [hhead]
      rfl
    obtain ⟨error, herror⟩ := hother byte hbyte
    rw [EndsWith, run_bind_of_ok hrun, herror]
    exact trivial

/-- The byte is taken if it was there, and else nothing. -/
theorem derives_consumeByte (n : ℕ) {byte : UInt8} (hbyte : byte < 128) :
    Derives n (consumeByte byte : TextParser ε Bool) fun found text =>
      text = if found then [Char.ofNat byte.toNat] else [] := by
  intro chars _
  unfold consumeByte
  apply derivesAt_peek_bind
  · exact DerivesAt.pure rfl
  · rintro first tail hfirst rfl
    apply DerivesAt.ite
    · intro heq
      rw [Option.some.injEq] at heq
      subst heq
      apply (derivesAt_advance_one first hfirst tail).bind
      rintro _ _ tail' - rfl
      exact DerivesAt.pure rfl
    · exact fun _ => DerivesAt.pure rfl
  · intro first c tail hfirst _ _
    apply DerivesAt.ite
    · intro heq
      rw [Option.some.injEq] at heq
      rw [heq] at hfirst
      exact absurd hbyte (UInt8.not_lt.mpr hfirst)
    · exact fun _ => DerivesAt.pure rfl

end Bytes

/-! ### Loops -/

/-- The texts that the rounds of a loop take, one behind the other. -/
inductive Iterates (G : α → α ⊕ β → List Char → Prop) : α → β → List Char → Prop where
  | stop {a : α} {b : β} {text : List Char} (h : G a (.inr b) text) : Iterates G a b text
  | step {a a' : α} {b : β} {first second : List Char} (h : G a (.inl a') first)
      (rest : Iterates G a' b second) : Iterates G a b (first ++ second)

/-- The text of a loop is the one of its turns. Every turn that goes on takes something, so the
rounds suffice. -/
theorem derivesAt_loop {n : ℕ} {body : α → TextParser ε (α ⊕ β)} {G : α → α ⊕ β → List Char → Prop}
    (hbody : ∀ a, Derives n (body a) (G a)) (hpos : ∀ a a' text, G a (.inl a') text → text ≠ [])
    {rounds : ℕ} {chars : List Char} (hlen : chars.length < n) (hrounds : chars.length < rounds)
    (a : α) : DerivesAt chars (loop body rounds a) (Iterates G a) := by
  induction rounds generalizing chars a with
  | zero => exact absurd hrounds (Nat.not_lt_zero _)
  | succ rounds ih =>
    rw [loop]
    apply (hbody a chars hlen).bind
    rintro (a' | b) text tail rfl ha
    · have htext := List.length_pos_of_ne_nil (hpos a a' text ha)
      rw [List.length_append] at hlen hrounds
      exact (ih (by omega) (by omega) a').mono fun b second hb _ => .step ha hb
    · exact DerivesAt.pure ((List.append_nil text).symm ▸ .stop ha)

/-- Every character has a byte. -/
theorem length_le_utf8Bytes (chars : List Char) : chars.length ≤ (utf8Bytes chars).length := by
  induction chars with
  | nil => exact le_rfl
  | cons c chars ih =>
    have hsize := c.utf8Size_pos
    rw [utf8Bytes_cons, List.length_append, String.length_utf8EncodeChar, List.length_cons]
    omega

/-- With as many rounds as bytes are left a loop does not run out of them. -/
theorem derives_loopRest {n : ℕ} {body : α → TextParser ε (α ⊕ β)}
    {G : α → α ⊕ β → List Char → Prop} (hbody : ∀ a, Derives n (body a) (G a))
    (hpos : ∀ a a' text, G a (.inl a') text → text ≠ []) (a : α) :
    Derives n (loopRest body a) (Iterates G a) := by
  intro chars hlen
  have hrounds := length_le_utf8Bytes chars
  exact EndsWith.get_bind (derivesAt_loop hbody hpos hlen (Nat.lt_succ_of_le hrounds) a)

/-! ## What a parser takes -/

/-- The parser takes `text` and returns `a` when the text goes on as `stop` says. -/
def Takes (parser : TextParser ε α) (text : List Char) (a : α) (stop : List Char → Prop) : Prop :=
  ∀ rest, stop rest → parser (utf8Bytes (text ++ rest)) = .ok a (utf8Bytes rest)

/-- However the text goes on. -/
abbrev anyRest : List Char → Prop := fun _ => True

section Takes

variable {parser : TextParser ε α} {first text : List Char} {a : α} {b : β}
  {stop stop' : List Char → Prop} {c : Char}

/-- A value without taking anything. -/
theorem Takes.pure (a : α) (stop : List Char → Prop) :
    Takes (Pure.pure a : TextParser ε α) [] a stop :=
  fun _ _ => rfl

/-- What has to follow may be narrowed. -/
theorem Takes.mono (h : Takes parser text a stop) (hstop : ∀ rest, stop' rest → stop rest) :
    Takes parser text a stop' :=
  fun rest hrest => h rest (hstop rest hrest)

/-- A text and then another one. -/
theorem Takes.bind {next : α → TextParser ε β} (h : Takes parser first a stop)
    (hnext : Takes (next a) text b stop') (hstop : ∀ rest, stop' rest → stop (text ++ rest)) :
    Takes (parser >>= next) (first ++ text) b stop' := by
  intro rest hrest
  rw [List.append_assoc, run_bind_of_ok (h (text ++ rest) (hstop rest hrest))]
  exact hnext rest hrest

/-- A parser whose end does not depend on what follows. -/
theorem Takes.bind_any {next : α → TextParser ε β} (h : Takes parser first a anyRest)
    (hnext : Takes (next a) text b stop') : Takes (parser >>= next) (first ++ text) b stop' :=
  h.bind hnext fun _ _ => trivial

/-- The value is handed on. -/
theorem Takes.bind_pure {next : α → TextParser ε β} (h : Takes parser text a stop)
    (hnext : next a = Pure.pure b) : Takes (parser >>= next) text b stop := by
  intro rest hrest
  rw [run_bind_of_ok (h rest hrest), hnext]
  rfl

/-- An outcome on the side takes nothing. -/
theorem Takes.lift_bind {outcome : Outcome ε α} {next : α → TextParser ε β} (h : outcome = .ok a)
    (hnext : Takes (next a) text b stop) : Takes (outcome.lift >>= next) text b stop := by
  rw [Outcome.lift_bind h]
  exact hnext

/-- Looking at the next byte, and going on with it. -/
theorem takes_peek_bind {byte : UInt8} (hbyte : byte < 128) {next : Option UInt8 → TextParser ε β}
    (h : Takes (next (some byte)) (Char.ofNat byte.toNat :: text) b stop) :
    Takes (peek >>= next) (Char.ofNat byte.toNat :: text) b stop := by
  intro rest hrest
  rw [← h rest hrest, List.cons_append, utf8Bytes_ascii hbyte]
  rfl

/-- A step takes the character of a byte below 128. -/
theorem takes_advance {byte : UInt8} (hbyte : byte < 128) :
    Takes (advance 1 : TextParser ε Unit) [Char.ofNat byte.toNat] () anyRest := by
  intro rest _
  rw [List.singleton_append, utf8Bytes_ascii hbyte]
  rfl

/-- The next byte takes its character. -/
theorem takes_nextByte {byte : UInt8} (hbyte : byte < 128) :
    Takes (nextByte : TextParser ε (Option UInt8)) [Char.ofNat byte.toNat] (some byte) anyRest := by
  intro rest _
  rw [List.singleton_append, utf8Bytes_ascii hbyte]
  rfl

/-- A byte that is expected and there is taken. -/
theorem takes_consumeByte {byte : UInt8} (hbyte : byte < 128) :
    Takes (consumeByte byte : TextParser ε Bool) [Char.ofNat byte.toNat] true anyRest := by
  intro rest _
  rw [List.singleton_append, utf8Bytes_ascii hbyte]
  show (if some byte = some byte then _ else _ : TextParser ε Bool) _ = _
  rw [if_pos rfl]
  rfl

/-- Another character is left where it is. -/
theorem takes_consumeByte_ne {byte : UInt8} (hbyte : byte < 128) :
    Takes (consumeByte byte : TextParser ε Bool) [] false
      fun rest => ∀ tail, rest ≠ Char.ofNat byte.toNat :: tail := by
  intro rest hrest
  have hhead : ¬(utf8Bytes rest).head? = some byte := by
    intro hhead
    obtain ⟨bytes, hbytes⟩ := List.head?_eq_some_iff.mp hhead
    obtain ⟨tail, htail, -⟩ := utf8Bytes_eq_cons hbyte hbytes
    exact hrest tail htail
  show (if (utf8Bytes rest).head? = some byte then _ else _ : TextParser ε Bool) _ = _
  rw [if_neg hhead]
  rfl

/-- A loop takes the texts of its turns, if it has rounds enough. -/
theorem takes_loop {body : α → TextParser ε (α ⊕ β)} {G : α → α ⊕ β → List Char → Prop}
    (hbody : ∀ a next text, G a next text → Takes (body a) text next anyRest)
    (hpos : ∀ a a' text, G a (.inl a') text → text ≠ []) {a : α} {b : β} {text : List Char}
    (h : Iterates G a b text) {rounds : ℕ} (hrounds : text.length < rounds) :
    Takes (loop body rounds a) text b anyRest := by
  induction h generalizing rounds with
  | stop h =>
    cases rounds with
    | zero => exact absurd hrounds (Nat.not_lt_zero _)
    | succ rounds =>
      intro rest _
      rw [loop, run_bind_of_ok (hbody _ _ _ h rest trivial)]
      rfl
  | step h _ ih =>
    cases rounds with
    | zero => exact absurd hrounds (Nat.not_lt_zero _)
    | succ rounds =>
      have hfirst := List.length_pos_of_ne_nil (hpos _ _ _ h)
      rw [List.length_append] at hrounds
      rw [loop]
      exact (hbody _ _ _ h).bind_any (ih (by omega))

/-- A loop over the rest of the input takes the texts of its turns. -/
theorem takes_loopRest {body : α → TextParser ε (α ⊕ β)} {G : α → α ⊕ β → List Char → Prop}
    (hbody : ∀ a next text, G a next text → Takes (body a) text next anyRest)
    (hpos : ∀ a a' text, G a (.inl a') text → text ≠ []) {a : α} {b : β} {text : List Char}
    (h : Iterates G a b text) : Takes (loopRest body a) text b anyRest := by
  intro rest _
  have hlen := length_le_utf8Bytes (text ++ rest)
  rw [List.length_append] at hlen
  rw [loopRest, run_get_bind]
  exact takes_loop hbody hpos h (by omega) rest trivial

end Takes

end TextParser

end ByteCodec
