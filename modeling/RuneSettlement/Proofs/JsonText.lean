import Mathlib.Tactic.Lemma
import RuneSettlement.Json.Reader
import RuneSettlement.Json.Writer

/-!
# JSON text is read back as written

The text of a value without other numerals than natural numbers, whose strings all denote texts, is
read as that value (`parse?_render`). The lexer finds the tokens that were written: a string may
hold any characters, and of all tokens only a numeral depends on what comes after it, which after a
value is a comma, a closing bracket or brace, or nothing. The reader then takes the tokens of each
value as that value, whatever is open around it.
-/

namespace RuneSettlement.Json

/-- Values that are determined by their text. -/
inductive Plain : Json → Prop
  | null : Plain .null
  | bool (b : Bool) : Plain (.bool b)
  | natural (n : Nat) : Plain (.natural n)
  | text (s : String) : Plain (.text s)
  | array {items : List Json} (h : ∀ j ∈ items, Plain j) : Plain (.array items)
  | record {fields : List (String × Json)} (h : ∀ f ∈ fields, Plain f.2) : Plain (.record fields)

/-! ### String literals -/

/-- The piece of a literal that an escaped character is read as. -/
def pieceOf (c : Char) : Piece :=
  if c.toNat < 32 ∧ c ∉ ['\x08', '\t', '\n', '\x0c', '\r'] then .unit c.toNat else .char c

lemma Piece.decode_unit {u : Nat} (h : u < 0xd800) (pieces : List Piece) :
    decode (.unit u :: pieces) = (decode pieces).map (Char.ofNat u :: ·) := by
  have hhigh : isHighSurrogate u = false := by
    simp only [isHighSurrogate, decide_eq_false_iff_not]
    omega
  have hlow : isLowSurrogate u = false := by
    simp only [isLowSurrogate, decide_eq_false_iff_not]
    omega
  cases pieces with
  | nil => simp [decode, hhigh, hlow]
  | cons p pieces => cases p <;> simp [decode, hhigh, hlow]

lemma decode_map_pieceOf (cs : List Char) : Piece.decode (cs.map pieceOf) = some cs := by
  induction cs with
  | nil => rfl
  | cons c cs ih =>
    rw [List.map_cons, pieceOf]
    split
    · next h => rw [Piece.decode_unit (by omega), ih, Char.ofNat_toNat, Option.map_some]
    · rw [Piece.decode, ih, Option.map_some]

lemma hexDigit?_digitChar : ∀ n < 16, hexDigit? n.digitChar = some n := by decide

namespace Mode

/-- A character that completes no token. -/
lemma tokens?_of_read {mode next : Mode} {c : Char} (h : mode.read? c = some (next, []))
    (cs : List Char) : mode.tokens? (c :: cs) = next.tokens? cs := by
  simp [tokens?, h]

/-- A character that completes a token, and none of the next. -/
lemma tokens?_of_completed {mode : Mode} {c : Char} {token : Token}
    (h : mode.read? c = some (.between, [token])) (cs : List Char) :
    mode.tokens? (c :: cs) = (between.tokens? cs).map (token :: ·) := by
  cases hcs : between.tokens? cs <;> simp [tokens?, h, hcs]

/-- An escape of one letter. -/
lemma tokens?_short (c d : Char) (hd : unescape? d = some c) (hu : d ≠ 'u') (pieces : List Piece)
    (cs : List Char) :
    (literal pieces).tokens? ('\\' :: d :: cs) = (literal (.char c :: pieces)).tokens? cs := by
  rw [tokens?_of_read rfl, tokens?_of_read]
  simp [read?, hu, hd]

/-- A control character without an escape of its own. -/
lemma tokens?_control {n : Nat} (hn : n < 32) (pieces : List Piece) (cs : List Char) :
    (literal pieces).tokens?
      ('\\' :: 'u' :: '0' :: '0' :: (n / 16).digitChar :: (n % 16).digitChar :: cs) =
      (literal (.unit n :: pieces)).tokens? cs := by
  have hhigh : (unit pieces 2 0).read? (n / 16).digitChar = some (unit pieces 3 (n / 16), []) := by
    simp [read?, hexDigit?_digitChar (n / 16) (by omega)]
  have hlow : (unit pieces 3 (n / 16)).read? (n % 16).digitChar =
      some (literal (.unit n :: pieces), []) := by
    simp [read?, hexDigit?_digitChar (n % 16) (by omega), Nat.div_add_mod]
  rw [tokens?_of_read rfl, tokens?_of_read rfl, tokens?_of_read rfl, tokens?_of_read rfl]
  exact (tokens?_of_read hhigh _).trans (tokens?_of_read hlow cs)

lemma tokens?_escape (c : Char) (pieces : List Piece) (cs : List Char) :
    (literal pieces).tokens? (Json.escape c ++ cs) =
      (literal (pieceOf c :: pieces)).tokens? cs := by
  unfold Json.escape
  split
  · next h =>
    subst h
    exact tokens?_short '"' '"' rfl (by decide) pieces cs
  split
  · next h =>
    subst h
    exact tokens?_short '\\' '\\' rfl (by decide) pieces cs
  split
  · next h =>
    subst h
    exact tokens?_short '\x08' 'b' rfl (by decide) pieces cs
  split
  · next h =>
    subst h
    exact tokens?_short '\t' 't' rfl (by decide) pieces cs
  split
  · next h =>
    subst h
    exact tokens?_short '\n' 'n' rfl (by decide) pieces cs
  split
  · next h =>
    subst h
    exact tokens?_short '\x0c' 'f' rfl (by decide) pieces cs
  split
  · next h =>
    subst h
    exact tokens?_short '\r' 'r' rfl (by decide) pieces cs
  split
  · next h =>
    rw [pieceOf, if_pos ⟨h, by simp [*]⟩]
    exact tokens?_control h pieces cs
  · next hquote hslash _ _ _ _ _ h =>
    rw [pieceOf, if_neg fun hc => h hc.1]
    exact tokens?_of_read (by simp [read?, hquote, hslash, h]) cs

lemma tokens?_literal (cs : List Char) (pieces : List Piece) (rest : List Char) :
    (literal pieces).tokens? (cs.flatMap Json.escape ++ '"' :: rest) =
      (between.tokens? rest).map
        (.string ((Piece.decode (pieces.reverse ++ cs.map pieceOf)).map String.ofList) :: ·) := by
  induction cs generalizing pieces with
  | nil => simpa using tokens?_of_completed rfl rest
  | cons c cs ih => simp [tokens?_escape, ih]

lemma tokens?_text (s : String) (rest : List Char) :
    between.tokens? ((Token.string (some s)).chars ++ rest) =
      (between.tokens? rest).map (.string (some s) :: ·) := by
  have hliteral := tokens?_literal s.toList [] rest
  rw [List.reverse_nil, List.nil_append, decode_map_pieceOf] at hliteral
  simp only [Token.chars, Option.getD_some, List.cons_append, List.append_assoc, List.nil_append]
  rw [tokens?_of_read rfl, hliteral]
  simp

end Mode

/-! ### Numerals -/

/-- A text that can go on after a value. -/
def Follows : List Char → Prop
  | [] => True
  | c :: _ => c = ',' ∨ c = ']' ∨ c = '\x7d'

lemma toDigits_cons {n : Nat} (hn : 0 < n) :
    ∃ c cs, Nat.toDigits 10 n = c :: cs ∧ c ≠ '0' := by
  induction n using Nat.strongRecOn with
  | ind n ih =>
    rw [Nat.toDigits_eq_if (by decide)]
    split
    · refine ⟨n.digitChar, [], rfl, ?_⟩
      rw [ne_eq, Nat.digitChar_eq_zero]
      omega
    · obtain ⟨c, cs, hcs, hc⟩ := ih (n / 10) (by omega) (by omega)
      exact ⟨c, cs ++ [(n % 10).digitChar], by rw [hcs]; rfl, hc⟩

lemma all_isDigit_toDigits (n : Nat) : (Nat.toDigits 10 n).all Char.isDigit = true :=
  List.all_eq_true.2 fun _ hc => Nat.isDigit_of_mem_toDigits (by decide) (by decide) hc

lemma start?_of_isDigit {c : Char} (h : c.isDigit = true) (hc : c ≠ '0') :
    start? c = some (.number .whole [c], []) := by
  have hne {d : Char} (hd : d.isDigit = false) : c ≠ d := by
    rintro rfl
    simp [h] at hd
  simp [start?, isBlank, h, hc, hne]

namespace Mode

/-- A numeral that may end is ended by what follows a value. -/
lemma tokens?_number_of_follows {phase : Phase} (hphase : phase = .zero ∨ phase = .whole)
    (written : List Char) {rest : List Char} (h : Follows rest) :
    (number phase written).tokens? rest =
      (between.tokens? rest).map (phase.token written.reverse :: ·) := by
  have hfinal : phase.isFinal = true := by rcases hphase with rfl | rfl <;> rfl
  cases rest with
  | nil => simp [tokens?, finish?, hfinal]
  | cons c cs =>
    have hnext : phase.next? c = none := by
      rcases hphase with rfl | rfl <;> rcases h with rfl | rfl | rfl <;> rfl
    have hread : (number phase written).read? c =
        (start? c).map fun r => (r.1, phase.token written.reverse :: r.2) := by
      simp [read?, hnext, hfinal]
    rw [tokens?, tokens?, hread, read?]
    cases start? c with
    | none => rfl
    | some r => cases hr : r.1.tokens? cs <;> simp [hr]

lemma tokens?_digits {ds : List Char} (hds : ds.all Char.isDigit = true) (written : List Char)
    (rest : List Char) :
    (number .whole written).tokens? (ds ++ rest) =
      (number .whole (ds.reverse ++ written)).tokens? rest := by
  induction ds generalizing written with
  | nil => rfl
  | cons d ds ih =>
    simp only [List.all_cons, Bool.and_eq_true] at hds
    have hread : (number .whole written).read? d = some (number .whole (d :: written), []) := by
      simp [read?, Phase.next?, hds.1]
    rw [List.cons_append, tokens?_of_read hread, ih hds.2]
    simp

lemma tokens?_natural (n : Nat) {rest : List Char} (h : Follows rest) :
    between.tokens? ((Token.natural n).chars ++ rest) =
      (between.tokens? rest).map (.natural n :: ·) := by
  rcases Nat.eq_zero_or_pos n with rfl | hn
  · exact (tokens?_of_read rfl rest).trans (tokens?_number_of_follows (.inl rfl) ['0'] h)
  · obtain ⟨c, cs, hcs, hc⟩ := toDigits_cons hn
    have hall := all_isDigit_toDigits n
    have hvalue : Nat.ofDigitChars 10 (c :: cs) 0 = n := hcs ▸ Nat.ofDigitChars_ten_toDigits
    rw [hcs] at hall
    obtain ⟨hd, hds⟩ : c.isDigit = true ∧ cs.all Char.isDigit = true := by simpa using hall
    have hstart : between.read? c = some (number .whole [c], []) := start?_of_isDigit hd hc
    rw [Token.chars, hcs, List.cons_append, tokens?_of_read hstart,
      tokens?_digits hds, tokens?_number_of_follows (.inr rfl) _ h]
    simp [Phase.token, hd, hds, hvalue]

end Mode

/-! ### The tokens of a value -/

lemma follows_comma (cs : List Char) : Follows (Token.comma.chars ++ cs) := .inl rfl

lemma follows_rightBracket (cs : List Char) : Follows (Token.rightBracket.chars ++ cs) :=
  .inr (.inl rfl)

lemma follows_rightBrace (cs : List Char) : Follows (Token.rightBrace.chars ++ cs) :=
  .inr (.inr rfl)

/-- Whether the lexer gets some tokens from their characters, with any text after them that can go
on after a value. -/
def Lexes (ts : List Token) : Prop :=
  ∀ rest, Follows rest →
    Mode.between.tokens? (ts.flatMap Token.chars ++ rest) =
      (Mode.between.tokens? rest).map (ts ++ ·)

section Lexing

open Mode

/-- A token of one character. -/
lemma tokens?_mark {token : Token}
    (h : token ∈ [.leftBrace, .rightBrace, .leftBracket, .rightBracket, .colon, .comma])
    (rest : List Char) :
    between.tokens? (token.chars ++ rest) = (between.tokens? rest).map (token :: ·) := by
  simp only [List.mem_cons, List.not_mem_nil, or_false] at h
  rcases h with rfl | rfl | rfl | rfl | rfl | rfl <;> exact tokens?_of_completed rfl rest

/-- The rest of a word. -/
lemma tokens?_word {cs : List Char} (hcs : cs ≠ []) (token : Token) (rest : List Char) :
    (word cs token).tokens? (cs ++ rest) = (between.tokens? rest).map (token :: ·) := by
  induction cs with
  | nil => exact absurd rfl hcs
  | cons c cs ih =>
    cases cs with
    | nil => exact tokens?_of_completed (by simp [read?]) rest
    | cons d cs =>
      have hread : (word (c :: d :: cs) token).read? c = some (word (d :: cs) token, []) := by
        simp [read?]
      exact (tokens?_of_read hread _).trans (ih (List.cons_ne_nil d cs))

lemma lexes_itemTokens {items : List Json} (h : ∀ j ∈ items, Lexes j.tokens) :
    Lexes (itemTokens items) := by
  induction items with
  | nil =>
    intro rest _
    simp [itemTokens]
  | cons j items ih =>
    cases items with
    | nil => exact h j (by simp)
    | cons k items =>
      intro rest hrest
      have hj := h j (by simp)
      have htail := ih (fun i hi => h i (List.mem_cons_of_mem j hi)) rest hrest
      simp only [itemTokens, List.flatMap_append, List.flatMap_cons, List.append_assoc]
      rw [hj _ (follows_comma _), tokens?_mark (by simp), htail]
      simp [Function.comp_def]

lemma lexes_fieldTokens {fields : List (String × Json)} (h : ∀ f ∈ fields, Lexes f.2.tokens) :
    Lexes (fieldTokens (fields.map fun f => (some f.1, f.2))) := by
  induction fields with
  | nil =>
    intro rest _
    simp [fieldTokens]
  | cons f fields ih =>
    have hf := h f (by simp)
    intro rest hrest
    cases fields with
    | nil =>
      simp only [List.map_cons, List.map_nil, fieldTokens, List.flatMap_cons, List.append_assoc]
      rw [tokens?_text, tokens?_mark (by simp), hf rest hrest]
      simp [Function.comp_def]
    | cons g fields =>
      have htail := ih (fun f hf => h f (List.mem_cons_of_mem _ hf)) rest hrest
      simp only [List.map_cons] at htail
      simp only [List.map_cons, fieldTokens, List.flatMap_cons, List.flatMap_append,
        List.append_assoc, List.cons_append]
      rw [tokens?_text, tokens?_mark (by simp), hf _ (follows_comma _), tokens?_mark (by simp),
        htail]
      simp [Function.comp_def]

/-- Tokens between two that are each a single character. -/
lemma Lexes.enclose {ts : List Token} (h : Lexes ts) {first last : Token}
    (hfirst : first ∈ [.leftBrace, .rightBrace, .leftBracket, .rightBracket, .colon, .comma])
    (hlast : last = .rightBracket ∨ last = .rightBrace) : Lexes (first :: ts ++ [last]) := by
  intro rest _
  have hfollows : Follows (last.chars ++ rest) := by
    rcases hlast with rfl | rfl
    · exact follows_rightBracket rest
    · exact follows_rightBrace rest
  have hmark : last ∈
      [.leftBrace, .rightBrace, .leftBracket, .rightBracket, Token.colon, .comma] := by
    rcases hlast with rfl | rfl <;> simp
  simp only [List.cons_append, List.flatMap_cons, List.flatMap_append, List.flatMap_nil,
    List.append_nil, List.append_assoc]
  rw [tokens?_mark hfirst, h _ hfollows, tokens?_mark hmark]
  simp [Function.comp_def]

/-- The lexer finds the tokens of a value in its text. -/
theorem Plain.lexes {j : Json} (h : j.Plain) : Lexes j.tokens := by
  induction h with
  | null => exact fun rest _ => (tokens?_of_read rfl _).trans (tokens?_word (by simp) _ rest)
  | bool b =>
    intro rest _
    cases b with
    | true => exact (tokens?_of_read rfl _).trans (tokens?_word (by simp) _ rest)
    | false => exact (tokens?_of_read rfl _).trans (tokens?_word (by simp) _ rest)
  | natural n =>
    intro rest hrest
    simpa [tokens] using tokens?_natural n hrest
  | text s =>
    intro rest _
    simpa [tokens, Json.text] using tokens?_text s rest
  | array _ ih =>
    rw [tokens]
    exact (lexes_itemTokens ih).enclose (by simp) (.inl rfl)
  | record _ ih =>
    rw [Json.record, tokens]
    exact (lexes_fieldTokens ih).enclose (by simp) (.inr rfl)

end Lexing

/-! ### The value of the tokens -/

/-- Whether the reader takes some tokens, where it waits for a value, as that value. -/
def Denotes (ts : List Token) (j : Json) : Prop :=
  ∀ stack, ts.foldlM step? (stack, .value) = some (stack, .more j)

lemma step?_value (stack : List Frame) (t : Token) :
    step? (stack, .value) t = beginValue? stack t := rfl

lemma step?_valueOrEnd (stack : List Frame) {t : Token} (ht : t ≠ .rightBracket) :
    step? (stack, .valueOrEnd) t = beginValue? stack t := by
  rw [step?]
  exact fun _ hbracket _ => absurd hbracket ht

/-- Where an array might also end, the tokens of a value are taken in the same way. -/
lemma foldlM_valueOrEnd {ts : List Token} {stack after : List Frame} {j : Json}
    (h : ts.foldlM step? (stack, .value) = some (after, .more j)) :
    ts.foldlM step? (stack, .valueOrEnd) = some (after, .more j) := by
  cases ts with
  | nil => simp at h
  | cons t ts =>
    have ht : t ≠ .rightBracket := by
      rintro rfl
      simp [step?_value, beginValue?, Token.scalar?] at h
    rw [List.foldlM_cons, step?_valueOrEnd stack ht]
    exact h

lemma denotes_scalar {t : Token} {j : Json} (h : t.scalar? = some j) : Denotes [t] j := by
  intro stack
  cases t <;> simp_all [Token.scalar?, step?_value, beginValue?]

/-- The items of an open array and its end. -/
lemma foldlM_itemTokens {items : List Json} (hitems : items ≠ [])
    (h : ∀ j ∈ items, Denotes j.tokens j) (done : List Json) (stack : List Frame) :
    (itemTokens items ++ [Token.rightBracket]).foldlM step? (.array done :: stack, .value) =
      some (stack, .more (.array (done.reverse ++ items))) := by
  induction items generalizing done with
  | nil => exact absurd rfl hitems
  | cons j items ih =>
    have hj := h j (by simp) (.array done :: stack)
    cases items with
    | nil =>
      rw [itemTokens, List.foldlM_append, hj, ← List.reverse_cons]
      rfl
    | cons k items =>
      have htail := ih (by simp) (fun i hi => h i (List.mem_cons_of_mem j hi)) (j :: done)
      rw [List.reverse_cons, List.append_assoc, List.singleton_append] at htail
      rw [itemTokens, List.append_assoc, List.foldlM_append, hj]
      exact htail

lemma denotes_array {items : List Json} (h : ∀ j ∈ items, Denotes j.tokens j) :
    Denotes (tokens (.array items)) (.array items) := by
  intro stack
  cases items with
  | nil => rfl
  | cons j items =>
    rw [tokens]
    exact foldlM_valueOrEnd (foldlM_itemTokens (List.cons_ne_nil j items) h [] stack)

lemma foldlM_member (done : List (Option String × Json)) (key : Option String) (ts : List Token)
    (stack : List Frame) :
    (Token.string key :: Token.colon :: ts).foldlM step? (.object done :: stack, .key) =
      ts.foldlM step? (.member done key :: stack, .value) := rfl

/-- The fields of an open object and its end. -/
lemma foldlM_fieldTokens {fields : List (Option String × Json)} (hfields : fields ≠ [])
    (h : ∀ f ∈ fields, Denotes f.2.tokens f.2) (done : List (Option String × Json))
    (stack : List Frame) :
    (fieldTokens fields ++ [Token.rightBrace]).foldlM step? (.object done :: stack, .key) =
      some (stack, .more (.object (done.reverse ++ fields))) := by
  induction fields generalizing done with
  | nil => exact absurd rfl hfields
  | cons f fields ih =>
    obtain ⟨key, j⟩ := f
    have hj : j.tokens.foldlM step? (.member done key :: stack, .value) = _ :=
      h (key, j) (by simp) (.member done key :: stack)
    cases fields with
    | nil =>
      rw [fieldTokens, List.cons_append, List.cons_append, foldlM_member, List.foldlM_append, hj,
        ← List.reverse_cons]
      rfl
    | cons g fields =>
      have htail := ih (by simp) (fun g hg => h g (List.mem_cons_of_mem _ hg)) ((key, j) :: done)
      rw [List.reverse_cons, List.append_assoc, List.singleton_append] at htail
      simp only [fieldTokens, List.cons_append, List.append_assoc]
      rw [foldlM_member, List.foldlM_append, hj]
      exact htail

lemma denotes_object {fields : List (Option String × Json)}
    (h : ∀ f ∈ fields, Denotes f.2.tokens f.2) :
    Denotes (tokens (.object fields)) (.object fields) := by
  intro stack
  cases fields with
  | nil => rfl
  | cons f fields =>
    have hfields := foldlM_fieldTokens (List.cons_ne_nil f fields) h [] stack
    rw [tokens]
    cases fields with
    | nil => exact hfields
    | cons g fields => exact hfields

theorem Plain.denotes {j : Json} (h : j.Plain) : Denotes j.tokens j := by
  induction h with
  | null => exact denotes_scalar rfl
  | bool b => exact denotes_scalar rfl
  | natural n => exact denotes_scalar rfl
  | text s => exact denotes_scalar rfl
  | array _ ih => exact denotes_array ih
  | record _ ih =>
    refine denotes_object fun f hf => ?_
    obtain ⟨g, hg, rfl⟩ := List.mem_map.1 hf
    exact ih g hg

/-- The text of a plain value is read as that value. -/
theorem parse?_render {j : Json} (h : j.Plain) : parse? j.render = some j := by
  have hlexes := h.lexes [] trivial
  rw [List.append_nil] at hlexes
  have htokens : tokens? j.render.toList = some j.tokens := by
    simp [tokens?, render, hlexes, Mode.tokens?, Mode.finish?]
  simp [parse?, htokens, ofTokens?, h.denotes []]

end RuneSettlement.Json
