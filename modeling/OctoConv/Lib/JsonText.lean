import Mathlib.Data.List.Basic

/-!
# JSON texts

JSON as a text: a lexer that reads one character after the other, a parser that is a stack machine
over the tokens, and a printer. A parsed text keeps its numbers as they were written and the members
of an object in their order with repetitions, so that a schema above it can say what it makes of them.

## Main results

* `lex_print` — lexing a printed value gives its tokens.
* `run_tokens` — the tokens of a value take the machine from before the value to after it.
* `parse_print` — a printed value parses back to itself.
-/

namespace Conc.JsonText

/-- A JSON text as a tree. -/
inductive Value
  | null
  | bool (b : Bool)
  /-- A number, as it is written. -/
  | number (text : String)
  | string (s : String)
  | array (elements : List Value)
  /-- The members in their order, with repetitions. -/
  | object (members : List (String × Value))

/-! ## Numbers and names -/

/-- How far a number has been read. -/
inductive NumState
  | start | neg | zero | int | point | frac | exp | expSign | expDigits
deriving DecidableEq

/-- Read one character of a number. -/
def NumState.next : NumState → Char → Option NumState
  | .start, c => if c = '-' then some .neg else digit1 c
  | .neg, c => digit1 c
  | .zero, c => tail c
  | .int, c => if c.isDigit then some .int else tail c
  | .point, c => if c.isDigit then some .frac else none
  | .frac, c => if c.isDigit then some .frac else expStart c
  | .exp, c => if c = '+' ∨ c = '-' then some .expSign else digitE c
  | .expSign, c => digitE c
  | .expDigits, c => digitE c
where
  digit1 (c : Char) : Option NumState :=
    if c = '0' then some .zero else if c.isDigit then some .int else none
  expStart (c : Char) : Option NumState := if c = 'e' ∨ c = 'E' then some .exp else none
  tail (c : Char) : Option NumState := if c = '.' then some .point else expStart c
  digitE (c : Char) : Option NumState := if c.isDigit then some .expDigits else none

/-- A number may end here. -/
def NumState.ends : NumState → Bool
  | .zero | .int | .frac | .expDigits => true
  | _ => false

/-- The text is a number of the JSON grammar. -/
def isNumber (text : List Char) : Bool :=
  match text.foldlM NumState.next .start with
  | some s => s.ends
  | none => false

/-- The value that a bare word is. -/
def ofWord (word : List Char) : Option Value :=
  if word = "null".toList then some .null
  else if word = "true".toList then some (.bool true)
  else if word = "false".toList then some (.bool false)
  else if isNumber word then some (.number (String.ofList word))
  else none

/-! ## Strings -/

/-- What one element of a string literal stands for: a character, or a `\u` escape, which is a UTF-16
code unit. -/
inductive Piece
  | char (c : Char)
  | unit (n : Nat)

/-- The character of a code unit outside the surrogates. -/
def ofUnit (n : Nat) : Char := Char.ofNat n

/-- Half of a surrogate pair. -/
def isSurrogate (n : Nat) : Bool := 0xD800 ≤ n && n < 0xE000

/-- The characters of a string literal. Two escapes that make a surrogate pair are one character, and
any other surrogate is the replacement character. -/
def unquote : List Piece → List Char
  | [] => []
  | .char c :: l => c :: unquote l
  | .unit n :: l =>
    if isSurrogate n then
      match l with
      | .unit m :: l' =>
        if n < 0xDC00 ∧ 0xDC00 ≤ m ∧ m < 0xE000 then
          Char.ofNat ((n - 0xD800) * 0x400 + (m - 0xDC00) + 0x10000) :: unquote l'
        else '\ufffd' :: unquote (.unit m :: l')
      | l => '\ufffd' :: unquote l
    else ofUnit n :: unquote l

/-- The value of a hexadecimal digit. -/
def hexVal (c : Char) : Option Nat :=
  if '0' ≤ c ∧ c ≤ '9' then some (c.toNat - '0'.toNat)
  else if 'a' ≤ c ∧ c ≤ 'f' then some (c.toNat - 'a'.toNat + 10)
  else if 'A' ≤ c ∧ c ≤ 'F' then some (c.toNat - 'A'.toNat + 10)
  else none

/-- The character that a one-letter escape stands for. -/
def simpleEscape (c : Char) : Option Char :=
  if c = '"' ∨ c = '\\' ∨ c = '/' then some c
  else if c = 'b' then some '\u0008'
  else if c = 'f' then some '\u000c'
  else if c = 'n' then some '\n'
  else if c = 'r' then some '\r'
  else if c = 't' then some '\t'
  else none

/-! ## The lexer -/

/-- A token. -/
inductive Token
  | lbrace | rbrace | lbracket | rbracket | colon | comma
  /-- A run of characters that neither separate tokens nor belong to a string. -/
  | word (text : List Char)
  | string (s : String)
deriving DecidableEq

/-- What a character outside a string does. -/
inductive CharClass
  | space
  | punct (t : Token)
  | quote
  | other
deriving DecidableEq

/-- The class of a character outside a string. -/
def classify (c : Char) : CharClass :=
  if c = ' ' ∨ c = '\t' ∨ c = '\n' ∨ c = '\r' then .space
  else if c = '{' then .punct .lbrace
  else if c = '}' then .punct .rbrace
  else if c = '[' then .punct .lbracket
  else if c = ']' then .punct .rbracket
  else if c = ':' then .punct .colon
  else if c = ',' then .punct .comma
  else if c = '"' then .quote
  else .other

/-- Where the lexer is. What it has collected of a token is in reverse order. -/
inductive Lex
  | idle
  | word (acc : List Char)
  | str (acc : List Piece)
  /-- After a backslash. -/
  | esc (acc : List Piece)
  /-- After `\u` and `k` hexadecimal digits with the value `v`. -/
  | uni (acc : List Piece) (k v : Nat)

/-- The tokens of a text, from a state of the lexer. -/
def lex : Lex → List Char → Option (List Token)
  | .idle, [] => some []
  | .word acc, [] => some [.word acc.reverse]
  | .str _, [] => none
  | .esc _, [] => none
  | .uni _ _ _, [] => none
  | .idle, c :: l =>
    match classify c with
    | .space => lex .idle l
    | .punct t => (lex .idle l).map (t :: ·)
    | .quote => lex (.str []) l
    | .other => lex (.word [c]) l
  | .word acc, c :: l =>
    match classify c with
    | .space => (lex .idle l).map (.word acc.reverse :: ·)
    | .punct t => (lex .idle l).map fun ts => .word acc.reverse :: t :: ts
    | .quote => (lex (.str []) l).map (.word acc.reverse :: ·)
    | .other => lex (.word (c :: acc)) l
  | .str acc, c :: l =>
    if c = '"' then (lex .idle l).map (.string (String.ofList (unquote acc.reverse)) :: ·)
    else if c = '\\' then lex (.esc acc) l
    else if c.toNat < 0x20 then none
    else lex (.str (.char c :: acc)) l
  | .esc acc, c :: l =>
    match simpleEscape c with
    | some d => lex (.str (.char d :: acc)) l
    | none => if c = 'u' then lex (.uni acc 0 0) l else none
  | .uni acc k v, c :: l =>
    match hexVal c with
    | none => none
    | some d =>
      if k = 3 then lex (.str (.unit (16 * v + d) :: acc)) l else lex (.uni acc (k + 1) (16 * v + d)) l

/-! ## The parser -/

/-- An array or object that is being read. What it has so far is in reverse order. -/
inductive Frame
  | array (elements : List Value)
  /-- The value of `key` is next. -/
  | object (members : List (String × Value)) (key : String)

/-- Where the parser is, with the arrays and objects around. -/
inductive Parse
  /-- A value is next. -/
  | value (outer : List Frame)
  /-- After `[`. -/
  | elements (outer : List Frame)
  /-- After an opening brace. -/
  | members (outer : List Frame)
  /-- After the comma of an object. -/
  | key (members : List (String × Value)) (outer : List Frame)
  /-- After a key. -/
  | colon (members : List (String × Value)) (key : String) (outer : List Frame)
  /-- After a value. -/
  | after (v : Value) (outer : List Frame)

/-- Read a token where a value is due. -/
def startValue (outer : List Frame) : Token → Option Parse
  | .word w => (ofWord w).map (.after · outer)
  | .string s => some (.after (.string s) outer)
  | .lbracket => some (.elements outer)
  | .lbrace => some (.members outer)
  | _ => none

/-- Read one token. -/
def Parse.next : Parse → Token → Option Parse
  | .value outer, t => startValue outer t
  | .elements outer, .rbracket => some (.after (.array []) outer)
  | .elements outer, t => startValue (.array [] :: outer) t
  | .members outer, .rbrace => some (.after (.object []) outer)
  | .members outer, .string k => some (.colon [] k outer)
  | .key ms outer, .string k => some (.colon ms k outer)
  | .colon ms k outer, .colon => some (.value (.object ms k :: outer))
  | .after v (.array vs :: outer), .comma => some (.value (.array (v :: vs) :: outer))
  | .after v (.array vs :: outer), .rbracket => some (.after (.array (v :: vs).reverse) outer)
  | .after v (.object ms k :: outer), .comma => some (.key ((k, v) :: ms) outer)
  | .after v (.object ms k :: outer), .rbrace =>
    some (.after (.object ((k, v) :: ms).reverse) outer)
  | _, _ => none

/-- The value that has been read when the text ends. -/
def Parse.result : Parse → Option Value
  | .after v [] => some v
  | _ => none

/-- The value of a text that is one JSON value. -/
def parse (s : String) : Option Value := do
  let tokens ← lex .idle s.toList
  let final ← tokens.foldlM Parse.next (.value [])
  final.result

/-! ## The printer -/

/-- A hexadecimal digit. -/
def hexDigit (n : Nat) : Char := if n < 10 then Char.ofNat (48 + n) else Char.ofNat (87 + n)

/-- A character of a string literal. Besides what JSON asks for, the characters that HTML gives a
meaning and the two line separators of JavaScript are escaped. -/
def escape (c : Char) : List Char :=
  if c = '"' ∨ c = '\\' then ['\\', c]
  else if c = '\u0008' then ['\\', 'b']
  else if c = '\u000c' then ['\\', 'f']
  else if c = '\n' then ['\\', 'n']
  else if c = '\r' then ['\\', 'r']
  else if c = '\t' then ['\\', 't']
  else if c.toNat < 0x20 ∨ c = '<' ∨ c = '>' ∨ c = '&' then
    ['\\', 'u', '0', '0', hexDigit (c.toNat / 16), hexDigit (c.toNat % 16)]
  else if c = '\u2028' then ['\\', 'u', '2', '0', '2', '8']
  else if c = '\u2029' then ['\\', 'u', '2', '0', '2', '9']
  else [c]

/-- A string literal. -/
def quote (s : String) : List Char := '"' :: (s.toList.flatMap escape ++ ['"'])

/-- The text of a token. -/
def Token.text : Token → List Char
  | .lbrace => ['{']
  | .rbrace => ['}']
  | .lbracket => ['[']
  | .rbracket => [']']
  | .colon => [':']
  | .comma => [',']
  | .word w => w
  | .string s => quote s

mutual

/-- The tokens of a value. -/
def Value.tokens : Value → List Token
  | .null => [.word "null".toList]
  | .bool true => [.word "true".toList]
  | .bool false => [.word "false".toList]
  | .number text => [.word text.toList]
  | .string s => [.string s]
  | .array [] => [.lbracket, .rbracket]
  | .array (v :: vs) => .lbracket :: (v.tokens ++ elementTokens vs)
  | .object [] => [.lbrace, .rbrace]
  | .object ((k, v) :: ms) => .lbrace :: .string k :: .colon :: (v.tokens ++ memberTokens ms)

/-- The tokens of an array after an element. -/
def elementTokens : List Value → List Token
  | [] => [.rbracket]
  | v :: vs => .comma :: (v.tokens ++ elementTokens vs)

/-- The tokens of an object after a member. -/
def memberTokens : List (String × Value) → List Token
  | [] => [.rbrace]
  | (k, v) :: ms => .comma :: .string k :: .colon :: (v.tokens ++ memberTokens ms)

end

/-- A value as a text without white space. -/
def print (v : Value) : String := String.ofList (v.tokens.flatMap Token.text)

example : (parse " \x7b\"a\" : [1.5e3, null],\"b\":\"\\u0041\\ud83d\\ude00\\udc00\"\x7d ").map print =
    some "\x7b\"a\":[1.5e3,null],\"b\":\"A😀\ufffd\"\x7d" := by decide +kernel

/-! ## Lexing a word -/

/-- A digit belongs to a word. -/
theorem classify_digit {c : Char} (hc : c.isDigit = true) : classify c = .other := by
  have hlo : 48 ≤ c.toNat := by
    simpa [Char.isDigit, UInt32.le_iff_toNat_le] using (Bool.and_eq_true_iff.mp hc).1
  have hhi : c.toNat ≤ 57 := by
    simpa [Char.isDigit, UInt32.le_iff_toNat_le] using (Bool.and_eq_true_iff.mp hc).2
  have hne : ∀ d : Char, d.toNat < 48 ∨ 57 < d.toNat → c ≠ d := by
    intro d hd heq
    subst heq
    omega
  unfold classify
  rw [if_neg, if_neg (hne _ (by decide)), if_neg (hne _ (by decide)), if_neg (hne _ (by decide)),
    if_neg (hne _ (by decide)), if_neg (hne _ (by decide)), if_neg (hne _ (by decide)),
    if_neg (hne _ (by decide))]
  rintro (rfl | rfl | rfl | rfl)
  all_goals exact absurd hc (by decide)

/-- What a number is made of belongs to a word. -/
theorem NumState.classify_of_next {s s' : NumState} {c : Char} (h : s.next c = some s') :
    classify c = .other := by
  by_cases hd : c.isDigit = true
  · exact classify_digit hd
  have hz : c ≠ '0' := by
    rintro rfl
    exact hd (by decide)
  have hc : c = '-' ∨ c = '+' ∨ c = '.' ∨ c = 'e' ∨ c = 'E' := by
    by_contra hno
    simp only [not_or] at hno
    obtain ⟨h1, h2, h3, h4, h5⟩ := hno
    cases s <;>
      simp [next, next.digit1, next.tail, next.expStart, next.digitE, hd, hz, h1, h2, h3, h4, h5]
        at h
  rcases hc with rfl | rfl | rfl | rfl | rfl
  all_goals rfl

/-- The characters of a number are none that end a word. -/
theorem classify_of_foldlM {text : List Char} {s s' : NumState}
    (h : text.foldlM NumState.next s = some s') : ∀ c ∈ text, classify c = .other := by
  induction text generalizing s with
  | nil => simp
  | cons c l ih =>
    simp only [List.foldlM_cons, Option.bind_eq_bind, Option.bind_eq_some_iff] at h
    obtain ⟨s₁, hc, hl⟩ := h
    intro d hd
    rcases List.mem_cons.mp hd with rfl | hd
    · exact NumState.classify_of_next hc
    · exact ih hl d hd

/-- A run of characters that is lexed as one word. -/
structure IsWord (text : List Char) : Prop where
  nonempty : text ≠ []
  other : ∀ c ∈ text, classify c = .other

/-- A number is a word. -/
theorem IsWord.of_isNumber {text : List Char} (h : isNumber text = true) : IsWord text := by
  unfold isNumber at h
  split at h
  · rename_i s hs
    constructor
    · rintro rfl
      simp only [List.foldlM_nil, Option.pure_def, Option.some.injEq] at hs
      subst hs
      exact absurd h (by decide)
    · exact classify_of_foldlM hs
  · exact absurd h (by decide)

/-- A text of such characters is a word. -/
theorem IsWord.of_all {text : List Char} (hne : text ≠ [])
    (hall : text.all (fun c => classify c = .other) = true) : IsWord text :=
  ⟨hne, by simpa using hall⟩

/-- A word may end before this text. -/
def Stops (rest : List Char) : Prop := ∀ c ∈ rest.head?, classify c ≠ .other

/-- A text may stop at its end. -/
@[simp] theorem stops_nil : Stops [] := by
  intro c hc
  simp at hc

/-- It may stop before a character that ends a word. -/
theorem stops_cons {c : Char} {l : List Char} (hc : classify c ≠ .other) : Stops (c :: l) := by
  intro d hd
  obtain rfl : c = d := by simpa using hd
  exact hc

/-- A word ends where the text stops. -/
theorem lex_word_stops (acc : List Char) {rest : List Char} (h : Stops rest) :
    lex (.word acc) rest = (lex .idle rest).map (.word acc.reverse :: ·) := by
  cases rest with
  | nil => simp [lex]
  | cons c l =>
    have hc : classify c ≠ .other := h c (by simp)
    rw [lex, lex]
    rcases hcls : classify c with _ | t | _ | _
    · rfl
    · simp [Function.comp_def]
    · rfl
    · exact absurd hcls hc

/-- A word is read to its end. -/
theorem lex_word_append (acc : List Char) {w rest : List Char}
    (hw : ∀ c ∈ w, classify c = .other) (h : Stops rest) :
    lex (.word acc) (w ++ rest) = (lex .idle rest).map (.word (acc.reverse ++ w) :: ·) := by
  induction w generalizing acc with
  | nil => simpa using lex_word_stops acc h
  | cons c w ih =>
    have hc : classify c = .other := hw c (by simp)
    rw [List.cons_append, lex, hc]
    simp only
    rw [ih (c :: acc) (fun d hd => hw d (by simp [hd]))]
    simp

/-- A word in front of a text that does not carry it on is its own token. -/
theorem lex_word {w rest : List Char} (hw : IsWord w) (h : Stops rest) :
    lex .idle (w ++ rest) = (lex .idle rest).map (.word w :: ·) := by
  obtain ⟨c, w', rfl⟩ := List.exists_cons_of_ne_nil hw.nonempty
  have hc : classify c = .other := hw.other c (by simp)
  rw [List.cons_append, lex, hc]
  simp only
  rw [lex_word_append [c] (fun d hd => hw.other d (by simp [hd])) h]
  simp

/-! ## Lexing a string literal -/

/-- The element of a string literal that `escape` writes for a character. -/
def piece (c : Char) : Piece :=
  if c = '"' ∨ c = '\\' ∨ c = '\u0008' ∨ c = '\u000c' ∨ c = '\n' ∨ c = '\r' ∨ c = '\t' then .char c
  else if c.toNat < 0x20 ∨ c = '<' ∨ c = '>' ∨ c = '&' ∨ c = '\u2028' ∨ c = '\u2029' then
    .unit c.toNat
  else .char c

/-- A hexadecimal digit is read back. -/
theorem hexVal_hexDigit : ∀ n < 16, hexVal (hexDigit n) = some n := by decide

/-- No character is a surrogate. -/
theorem isSurrogate_toNat (c : Char) : isSurrogate c.toNat = false := by
  have hv : c.toNat < 0xD800 ∨ 0xDFFF < c.toNat ∧ c.toNat < 0x110000 := c.valid
  unfold isSurrogate
  rw [Bool.and_eq_false_iff]
  rcases hv with h | h
  · left
    exact decide_eq_false (by omega)
  · right
    exact decide_eq_false (by omega)

/-- A unit that is no surrogate is a character of its own. -/
theorem unquote_unit {n : Nat} (h : isSurrogate n = false) (l : List Piece) :
    unquote (.unit n :: l) = ofUnit n :: unquote l := by
  rw [unquote.eq_def]
  exact if_neg (by rw [h]; decide)

/-- Taking a string literal apart undoes the escaping. -/
theorem unquote_map_piece (s : List Char) : unquote (s.map piece) = s := by
  induction s with
  | nil => rfl
  | cons c s ih =>
    rw [List.map_cons]
    have hu : unquote (.unit c.toNat :: s.map piece) = c :: unquote (s.map piece) := by
      rw [unquote_unit (isSurrogate_toNat c), ofUnit, Char.ofNat_toNat]
    have hp : piece c = .char c ∨ piece c = .unit c.toNat := by
      unfold piece
      split_ifs
      · exact .inl rfl
      · exact .inr rfl
      · exact .inl rfl
    rcases hp with hp | hp
    · rw [hp, unquote, ih]
    · rw [hp, hu, ih]

/-- One of the first three digits of an escape. -/
theorem lex_digit (acc : List Piece) {c : Char} {d k v : Nat} (hc : hexVal c = some d) (hk : k ≠ 3)
    (l : List Char) : lex (.uni acc k v) (c :: l) = lex (.uni acc (k + 1) (16 * v + d)) l := by
  rw [lex, hc]
  exact if_neg hk

/-- A `\u` escape of four digits is one code unit. -/
theorem lex_unit (acc : List Piece) {a b c d : Char} {w x y z : Nat} (ha : hexVal a = some w)
    (hb : hexVal b = some x) (hc : hexVal c = some y) (hd : hexVal d = some z) (l : List Char) :
    lex (.str acc) ('\\' :: 'u' :: a :: b :: c :: d :: l) =
      lex (.str (.unit (16 * (16 * (16 * w + x) + y) + z) :: acc)) l := by
  have hq : ('\\' : Char) ≠ '"' := by decide
  have hs : simpleEscape 'u' = none := by decide
  rw [lex, if_neg hq, if_pos rfl, lex, hs]
  simp only [↓reduceIte]
  rw [lex_digit acc ha (by decide), lex_digit acc hb (by decide), lex_digit acc hc (by decide), lex,
    hd]
  simp only [Nat.mul_zero, Nat.zero_add, ↓reduceIte]

/-- An escaped character is read as one piece. -/
theorem lex_escape (acc : List Piece) (c : Char) (l : List Char) :
    lex (.str acc) (escape c ++ l) = lex (.str (piece c :: acc)) l := by
  have hq : ('\\' : Char) ≠ '"' := by decide
  have hesc (e d : Char) (he : simpleEscape e = some d) :
      lex (.str acc) ('\\' :: e :: l) = lex (.str (.char d :: acc)) l := by
    rw [lex, if_neg hq, if_pos rfl, lex, he]
  unfold escape piece
  by_cases h1 : c = '"' ∨ c = '\\'
  · rw [if_pos h1, if_pos (by tauto)]
    exact hesc c c (by rcases h1 with rfl | rfl <;> rfl)
  by_cases h2 : c = '\u0008'
  · rw [if_neg h1, if_pos h2, if_pos (by tauto), h2]
    exact hesc 'b' _ rfl
  by_cases h3 : c = '\u000c'
  · rw [if_neg h1, if_neg h2, if_pos h3, if_pos (by tauto), h3]
    exact hesc 'f' _ rfl
  by_cases h4 : c = '\n'
  · rw [if_neg h1, if_neg h2, if_neg h3, if_pos h4, if_pos (by tauto), h4]
    exact hesc 'n' _ rfl
  by_cases h5 : c = '\r'
  · rw [if_neg h1, if_neg h2, if_neg h3, if_neg h4, if_pos h5, if_pos (by tauto), h5]
    exact hesc 'r' _ rfl
  by_cases h6 : c = '\t'
  · rw [if_neg h1, if_neg h2, if_neg h3, if_neg h4, if_neg h5, if_pos h6, if_pos (by tauto), h6]
    exact hesc 't' _ rfl
  rw [if_neg h1, if_neg h2, if_neg h3, if_neg h4, if_neg h5, if_neg h6]
  rw [if_neg (show ¬ (c = '"' ∨ c = '\\' ∨ c = '\u0008' ∨ c = '\u000c' ∨ c = '\n' ∨ c = '\r' ∨
    c = '\t') by tauto)]
  by_cases h7 : c.toNat < 0x20 ∨ c = '<' ∨ c = '>' ∨ c = '&'
  · have hlt : c.toNat < 256 := by
      rcases h7 with h | rfl | rfl | rfl
      · omega
      all_goals decide
    rw [if_pos h7, if_pos (by tauto)]
    simp only [List.cons_append, List.nil_append]
    rw [lex_unit acc (w := 0) (x := 0) rfl rfl (hexVal_hexDigit _ (by omega))
      (hexVal_hexDigit _ (by omega))]
    congr 4
    omega
  by_cases h8 : c = '\u2028'
  · rw [if_neg h7, if_pos h8, if_pos (by tauto), h8]
    exact lex_unit acc (hexVal_hexDigit 2 (by omega)) (hexVal_hexDigit 0 (by omega))
      (hexVal_hexDigit 2 (by omega)) (hexVal_hexDigit 8 (by omega)) l
  by_cases h9 : c = '\u2029'
  · rw [if_neg h7, if_neg h8, if_pos h9, if_pos (by tauto), h9]
    exact lex_unit acc (hexVal_hexDigit 2 (by omega)) (hexVal_hexDigit 0 (by omega))
      (hexVal_hexDigit 2 (by omega)) (hexVal_hexDigit 9 (by omega)) l
  rw [if_neg h7, if_neg h8, if_neg h9, if_neg (by tauto)]
  simp only [List.cons_append, List.nil_append]
  rw [lex, if_neg (by tauto), if_neg (by tauto), if_neg (by tauto)]

/-- What was escaped is read as its pieces. -/
theorem lex_escapes (acc : List Piece) (s l : List Char) :
    lex (.str acc) (s.flatMap escape ++ l) = lex (.str ((s.map piece).reverse ++ acc)) l := by
  induction s generalizing acc with
  | nil => rfl
  | cons c s ih =>
    rw [List.flatMap_cons, List.append_assoc, lex_escape, ih]
    simp

/-- A string literal is its own token, whatever follows it. -/
theorem lex_quote (s : String) (rest : List Char) :
    lex .idle (quote s ++ rest) = (lex .idle rest).map (.string s :: ·) := by
  have hq : classify '"' = .quote := rfl
  rw [quote, List.cons_append, List.append_assoc, lex, hq]
  simp only
  rw [lex_escapes, List.append_nil, List.cons_append, List.nil_append, lex, if_pos rfl,
    List.reverse_reverse, unquote_map_piece, String.ofList_toList]

/-! ## Lexing a printed value -/

mutual

/-- Every number of the value is one of the JSON grammar. -/
def Value.Valid : Value → Prop
  | .null => True
  | .bool _ => True
  | .number text => isNumber text.toList = true
  | .string _ => True
  | .array vs => elementsValid vs
  | .object ms => membersValid ms

/-- `Valid` of the elements of an array. -/
def elementsValid : List Value → Prop
  | [] => True
  | v :: vs => v.Valid ∧ elementsValid vs

/-- `Valid` of the members of an object. -/
def membersValid : List (String × Value) → Prop
  | [] => True
  | (_, v) :: ms => v.Valid ∧ membersValid ms

end

/-- A mark is a token of its own. -/
theorem lex_punct {c : Char} {t : Token} (h : classify c = .punct t) (rest : List Char) :
    lex .idle (c :: rest) = (lex .idle rest).map (t :: ·) := by
  rw [lex, h]

/-- The text of tokens. -/
abbrev text (ts : List Token) : List Char := ts.flatMap Token.text

/-- A text is read as the tokens `ts` and then as what follows. -/
def Reads (ts : List Token) (rest : List Char) : Prop :=
  lex .idle (text ts ++ rest) = (lex .idle rest).map (ts ++ ·)

/-- Two lists of tokens that are read one after the other are read together. -/
theorem reads_append {ts us : List Token} {rest : List Char} (h₁ : Reads ts (text us ++ rest))
    (h₂ : Reads us rest) : Reads (ts ++ us) rest := by
  unfold Reads at *
  rw [text, List.flatMap_append, List.append_assoc, h₁, h₂, Option.map_map]
  congr 1
  funext l
  simp

/-- A word is read if the text stops behind it. -/
theorem reads_word {w rest : List Char} (hw : IsWord w) (h : Stops rest) : Reads [.word w] rest := by
  unfold Reads
  simpa [text, Token.text] using lex_word hw h

/-- A string is read, whatever follows. -/
theorem reads_string (s : String) (rest : List Char) : Reads [.string s] rest := by
  unfold Reads
  simpa [text, Token.text] using lex_quote s rest

/-- A mark is read, whatever follows. -/
theorem reads_punct {c : Char} {t : Token} (ht : t.text = [c]) (h : classify c = .punct t)
    (rest : List Char) : Reads [t] rest := by
  unfold Reads
  simpa [text, ht] using lex_punct h rest

/-- A token is a word, a string or a mark. -/
theorem classify_punct (t : Token) :
    (∃ w, t = .word w) ∨ (∃ s, t = .string s) ∨ ∃ c, t.text = [c] ∧ classify c = .punct t := by
  cases t with
  | word w => exact .inl ⟨w, rfl⟩
  | string s => exact .inr (.inl ⟨s, rfl⟩)
  | lbrace => exact .inr (.inr ⟨'{', rfl, rfl⟩)
  | rbrace => exact .inr (.inr ⟨'}', rfl, rfl⟩)
  | lbracket => exact .inr (.inr ⟨'[', rfl, rfl⟩)
  | rbracket => exact .inr (.inr ⟨']', rfl, rfl⟩)
  | colon => exact .inr (.inr ⟨':', rfl, rfl⟩)
  | comma => exact .inr (.inr ⟨',', rfl, rfl⟩)

/-- A token other than a word is read whatever follows it. -/
theorem reads_token {t : Token} (ht : ∀ w, t ≠ .word w) (rest : List Char) : Reads [t] rest := by
  rcases classify_punct t with ⟨w, rfl⟩ | ⟨s, rfl⟩ | ⟨c, hc, hcls⟩
  · exact absurd rfl (ht w)
  · exact reads_string s rest
  · exact reads_punct hc hcls rest

/-- A token other than a word in front of tokens that are read. -/
theorem reads_cons {t : Token} (ht : ∀ w, t ≠ .word w) {ts : List Token} {rest : List Char}
    (h : Reads ts rest) : Reads (t :: ts) rest :=
  have hone : Reads [t] (text ts ++ rest) := reads_token ht _
  reads_append hone h

/-- Behind the last element the text stops. -/
theorem stops_elementTokens (vs : List Value) (rest : List Char) :
    Stops (text (elementTokens vs) ++ rest) := by
  cases vs with
  | nil => exact stops_cons (c := ']') (by decide)
  | cons v vs => exact stops_cons (c := ',') (by decide)

/-- Behind the last member it does too. -/
theorem stops_memberTokens (ms : List (String × Value)) (rest : List Char) :
    Stops (text (memberTokens ms) ++ rest) := by
  cases ms with
  | nil => exact stops_cons (c := '}') (by decide)
  | cons m ms =>
    obtain ⟨k, v⟩ := m
    exact stops_cons (c := ',') (by decide)

mutual

/-- A printed value is read as its tokens. -/
theorem reads_tokens (v : Value) (hv : v.Valid) {rest : List Char} (h : Stops rest) :
    Reads v.tokens rest := by
  match v, hv with
  | .null, _ => exact reads_word (.of_all (by decide) (by decide)) h
  | .bool true, _ => exact reads_word (.of_all (by decide) (by decide)) h
  | .bool false, _ => exact reads_word (.of_all (by decide) (by decide)) h
  | .number n, hv => exact reads_word (.of_isNumber hv) h
  | .string s, _ => exact reads_string s rest
  | .array [], _ => exact reads_cons (by simp) (reads_token (by simp) rest)
  | .array (v :: vs), hv =>
    have hhead : Reads v.tokens (text (elementTokens vs) ++ rest) :=
      reads_tokens v hv.1 (stops_elementTokens vs rest)
    exact reads_cons (by simp) (reads_append hhead (reads_elementTokens vs hv.2 rest))
  | .object [], _ => exact reads_cons (by simp) (reads_token (by simp) rest)
  | .object ((k, v) :: ms), hv =>
    have hhead : Reads v.tokens (text (memberTokens ms) ++ rest) :=
      reads_tokens v hv.1 (stops_memberTokens ms rest)
    exact reads_cons (by simp) (reads_cons (by simp) (reads_cons (by simp)
      (reads_append hhead (reads_memberTokens ms hv.2 rest))))

/-- The elements of an array are read. -/
theorem reads_elementTokens (vs : List Value) (hvs : elementsValid vs) (rest : List Char) :
    Reads (elementTokens vs) rest := by
  match vs, hvs with
  | [], _ => exact reads_token (by simp) rest
  | v :: vs, hvs =>
    have hhead : Reads v.tokens (text (elementTokens vs) ++ rest) :=
      reads_tokens v hvs.1 (stops_elementTokens vs rest)
    exact reads_cons (by simp) (reads_append hhead (reads_elementTokens vs hvs.2 rest))

/-- The members of an object are read. -/
theorem reads_memberTokens (ms : List (String × Value)) (hms : membersValid ms)
    (rest : List Char) : Reads (memberTokens ms) rest := by
  match ms, hms with
  | [], _ => exact reads_token (by simp) rest
  | (k, v) :: ms, hms =>
    have hhead : Reads v.tokens (text (memberTokens ms) ++ rest) :=
      reads_tokens v hms.1 (stops_memberTokens ms rest)
    exact reads_cons (by simp) (reads_cons (by simp) (reads_cons (by simp)
      (reads_append hhead (reads_memberTokens ms hms.2 rest))))

end

/-- Lexing a printed value gives its tokens. -/
theorem lex_print {v : Value} (hv : v.Valid) : lex .idle (print v).toList = some v.tokens := by
  have h : lex .idle (text v.tokens ++ []) = (lex .idle []).map (v.tokens ++ ·) :=
    reads_tokens v hv stops_nil
  rw [List.append_nil] at h
  rw [print, String.toList_ofList, h]
  simp [lex]

/-! ## Parsing printed tokens -/

/-- The machine reads the tokens `ts` from `s` and is in `s'`. -/
def Takes (s : Parse) (ts : List Token) (s' : Parse) : Prop := ts.foldlM Parse.next s = some s'

/-- Lists of tokens are taken one after the other. -/
theorem Takes.append {s₁ s₂ s₃ : Parse} {ts us : List Token} (h₁ : Takes s₁ ts s₂)
    (h₂ : Takes s₂ us s₃) : Takes s₁ (ts ++ us) s₃ := by
  unfold Takes at *
  rw [List.foldlM_append, h₁]
  exact h₂

/-- A token is taken before the others. -/
theorem Takes.cons {s₁ s₂ s₃ : Parse} {t : Token} {ts : List Token} (h₁ : s₁.next t = some s₂)
    (h₂ : Takes s₂ ts s₃) : Takes s₁ (t :: ts) s₃ := by
  unfold Takes at *
  rw [List.foldlM_cons, h₁]
  exact h₂

/-- One token is taken. -/
theorem Takes.single {s₁ s₂ : Parse} {t : Token} (h : s₁.next t = some s₂) : Takes s₁ [t] s₂ :=
  .cons h rfl

/-- A number is the value of its word. -/
theorem ofWord_number {n : String} (h : isNumber n.toList = true) :
    ofWord n.toList = some (.number n) := by
  have hne (w : String) (hw : isNumber w.toList = false) : n.toList ≠ w.toList := by
    intro heq
    rw [heq, hw] at h
    exact absurd h (by decide)
  unfold ofWord
  rw [if_neg (hne "null" (by decide)), if_neg (hne "true" (by decide)),
    if_neg (hne "false" (by decide)), if_pos h, String.ofList_toList]

/-- A value can start where `s` is: the tokens of `v` lead to `after v outer`. -/
def AtValue (s : Parse) (outer : List Frame) : Prop :=
  ∀ t s', startValue outer t = some s' → s.next t = some s'

/-- A value is expected where one has to come. -/
theorem atValue_value (outer : List Frame) : AtValue (.value outer) outer := by
  intro t s' h
  exact h

/-- A value may come where an element may. -/
theorem atValue_elements (outer : List Frame) :
    AtValue (.elements outer) (.array [] :: outer) := by
  intro t s' h
  cases t with
  | rbracket => simp [startValue] at h
  | _ => exact h

mutual

/-- The tokens of a value take the machine from before the value to after it. -/
theorem run_tokens (v : Value) (hv : v.Valid) {s : Parse} {outer : List Frame}
    (hs : AtValue s outer) : Takes s v.tokens (.after v outer) := by
  match v, hv with
  | .null, _ => exact .single (hs _ _ rfl)
  | .bool true, _ => exact .single (hs _ _ rfl)
  | .bool false, _ => exact .single (hs _ _ rfl)
  | .number n, hv =>
    refine .single (hs _ _ ?_)
    rw [startValue, ofWord_number hv]
    rfl
  | .string s, _ => exact .single (hs _ _ rfl)
  | .array [], _ => exact .cons (hs _ _ rfl) (.single rfl)
  | .array (v :: vs), hv =>
    have hhead : Takes (.elements outer) v.tokens (.after v (.array [] :: outer)) :=
      run_tokens v hv.1 (atValue_elements outer)
    exact .cons (hs _ _ rfl) (hhead.append (run_elementTokens vs hv.2 v [] outer))
  | .object [], _ => exact .cons (hs _ _ rfl) (.single rfl)
  | .object ((k, v) :: ms), hv =>
    have hhead : Takes (.value (.object [] k :: outer)) v.tokens
        (.after v (.object [] k :: outer)) :=
      run_tokens v hv.1 (atValue_value _)
    exact .cons (hs _ _ rfl) (.cons rfl (.cons rfl
      (hhead.append (run_memberTokens ms hv.2 k v [] outer))))

/-- The rest of an array, after its element `v`. -/
theorem run_elementTokens (vs : List Value) (hvs : elementsValid vs) (v : Value)
    (acc : List Value) (outer : List Frame) :
    Takes (.after v (.array acc :: outer)) (elementTokens vs)
      (.after (.array (acc.reverse ++ v :: vs)) outer) := by
  match vs, hvs with
  | [], _ =>
    refine .single ?_
    simp [Parse.next]
  | w :: vs, hvs =>
    have hhead : Takes (.value (.array (v :: acc) :: outer)) w.tokens
        (.after w (.array (v :: acc) :: outer)) :=
      run_tokens w hvs.1 (atValue_value _)
    have htail := run_elementTokens vs hvs.2 w (v :: acc) outer
    rw [List.reverse_cons, List.append_assoc] at htail
    exact .cons rfl (hhead.append htail)

/-- The rest of an object, after its member `k`. -/
theorem run_memberTokens (ms : List (String × Value)) (hms : membersValid ms) (k : String)
    (v : Value) (acc : List (String × Value)) (outer : List Frame) :
    Takes (.after v (.object acc k :: outer)) (memberTokens ms)
      (.after (.object (acc.reverse ++ (k, v) :: ms)) outer) := by
  match ms, hms with
  | [], _ =>
    refine .single ?_
    simp [Parse.next]
  | (l, w) :: ms, hms =>
    have hhead : Takes (.value (.object ((k, v) :: acc) l :: outer)) w.tokens
        (.after w (.object ((k, v) :: acc) l :: outer)) :=
      run_tokens w hms.1 (atValue_value _)
    have htail := run_memberTokens ms hms.2 l w ((k, v) :: acc) outer
    rw [List.reverse_cons, List.append_assoc] at htail
    exact .cons rfl (.cons rfl (.cons rfl (hhead.append htail)))

end

/-- A printed value parses back to itself. -/
theorem parse_print {v : Value} (hv : v.Valid) : parse (print v) = some v := by
  have hrun : v.tokens.foldlM Parse.next (.value []) = some (.after v []) :=
    run_tokens v hv (atValue_value [])
  unfold parse
  rw [lex_print hv]
  simp only [Option.bind_eq_bind, Option.bind_some, hrun, Parse.result]

/-- `Valid` of the members, one by one. -/
theorem membersValid_iff {ms : List (String × Value)} :
    membersValid ms ↔ ∀ m ∈ ms, m.2.Valid := by
  induction ms with
  | nil => simp [membersValid]
  | cons m ms ih =>
    obtain ⟨k, v⟩ := m
    simp [membersValid, ih]

end Conc.JsonText
