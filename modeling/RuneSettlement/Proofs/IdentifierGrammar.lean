import Mathlib.Data.List.TakeWhile
import Mathlib.Tactic.SplitIfs
import RuneSettlement.Proofs.IdentifierText
import RuneSettlement.Proofs.Refusals

/-!
# The grammar of identifier texts

Which texts name a transaction, an outpoint or an asset, and what any other text is refused with.
`Txid.Spells`, `OutPoint.Spells` and `CoinId.Spells` say it of the characters of a text alone, and
the readers accept just those texts (`identifiers_legible`). A value may be spelled in several ways,
in capitals, with a plus sign or with leading zeros; what is written for it is one of them, the same
for all.
-/

namespace RuneSettlement

/-! ### Hexadecimal digits -/

namespace Hex

/-- The hexadecimal digits, those above nine in either case. -/
def digits : List Char := "0123456789abcdefABCDEF".toList

/-- The two halves of every byte, the upper one first. -/
def nibbles (bytes : Bytes) : List Nat := bytes.flatMap fun b => [b.toNat / 16, b.toNat % 16]

@[simp] lemma nibbles_cons (b : UInt8) (bytes : Bytes) :
    nibbles (b :: bytes) = b.toNat / 16 :: b.toNat % 16 :: nibbles bytes := rfl

lemma length_nibbles (bytes : Bytes) : (nibbles bytes).length = 2 * bytes.length := by
  induction bytes with
  | nil => rfl
  | cons b bytes ih =>
    rw [nibbles_cons, List.length_cons, List.length_cons, ih, List.length_cons]
    omega

lemma lt_of_mem_nibbles {bytes : Bytes} : ∀ n ∈ nibbles bytes, n < 16 := by
  intro n hn
  obtain ⟨b, -, hn⟩ := List.mem_flatMap.1 hn
  have hb := b.toNat_lt
  simp only [List.mem_cons, List.not_mem_nil, or_false] at hn
  omega

lemma toList_encode (bytes : Bytes) :
    (encode bytes).toList = (nibbles bytes).map Nat.digitChar := by
  rw [encode, String.toList_ofList, nibbles, List.map_flatMap]
  rfl

lemma nibbles_cons_ofNat {hi lo : Nat} (hhi : hi < 16) (hlo : lo < 16) (bytes : Bytes) :
    nibbles (UInt8.ofNat (16 * hi + lo) :: bytes) = hi :: lo :: nibbles bytes := by
  have hbyte : (UInt8.ofNat (16 * hi + lo)).toNat = 16 * hi + lo := by
    rw [UInt8.toNat_ofNat', Nat.mod_eq_of_lt (by omega)]
  have hdiv : (16 * hi + lo) / 16 = hi := by omega
  have hmod : (16 * hi + lo) % 16 = lo := by omega
  rw [nibbles_cons, hbyte, hdiv, hmod]

lemma exists_nibbles : ∀ {ns : List Nat}, ns.length % 2 = 0 → (∀ n ∈ ns, n < 16) →
    ∃ bytes, nibbles bytes = ns
  | [], _, _ => ⟨[], rfl⟩
  | [_], heven, _ => by simp at heven
  | hi :: lo :: ns, heven, hns => by
    have hhi := hns hi (by simp)
    have hlo := hns lo (by simp)
    have hrest : ns.length % 2 = 0 := by
      simp only [List.length_cons] at heven
      omega
    obtain ⟨bytes, rfl⟩ := exists_nibbles hrest fun n hn => hns n (by simp [hn])
    exact ⟨UInt8.ofNat (16 * hi + lo) :: bytes, nibbles_cons_ofNat hhi hlo bytes⟩

lemma digitValue?_lt {b : UInt8} {n : Nat} (h : digitValue? b = some n) : n < 16 := by
  unfold digitValue? at h
  split_ifs at h <;> cases h <;> omega

lemma map_digitValue?_of_decodeFrom {position : Nat} {ds bytes : Bytes}
    (h : decodeFrom position ds = .ok bytes) :
    ds.map digitValue? = (nibbles bytes).map some := by
  fun_induction decodeFrom position ds generalizing bytes with
  | case1 position hi lo rest ih =>
    simp only [digitAt, bind, Except.bind, pure, Except.pure] at h
    cases hhi : digitValue? hi with
    | none =>
      rw [hhi] at h
      cases h
    | some upper =>
      cases hlo : digitValue? lo with
      | none =>
        rw [hhi, hlo] at h
        cases h
      | some lower =>
        cases hrest : decodeFrom (position + 2) rest with
        | error fault =>
          rw [hhi, hlo, hrest] at h
          cases h
        | ok others =>
          rw [hhi, hlo, hrest] at h
          cases h
          rw [nibbles_cons_ofNat (digitValue?_lt hhi) (digitValue?_lt hlo), List.map_cons,
            List.map_cons, hhi, hlo, ih hrest]
          rfl
  | case2 position b => cases h
  | case3 position =>
    cases h
    rfl

lemma decodeFrom_of_map_digitValue? {ds bytes : Bytes}
    (h : ds.map digitValue? = (nibbles bytes).map some) (position : Nat) :
    decodeFrom position ds = .ok bytes := by
  induction bytes generalizing ds position with
  | nil =>
    obtain rfl := List.map_eq_nil_iff.1 h
    rfl
  | cons b bytes ih =>
    rw [nibbles_cons, List.map_cons, List.map_cons] at h
    obtain ⟨hi, rest, rfl, hhi, h⟩ := List.map_eq_cons_iff.1 h
    obtain ⟨lo, rest, rfl, hlo, hrest⟩ := List.map_eq_cons_iff.1 h
    simp only [decodeFrom, digitAt, bind, Except.bind, pure, Except.pure, hhi, hlo,
      ih hrest (position + 2), Nat.div_add_mod, UInt8.ofNat_toNat]

/-! ### Characters that are digits -/

lemma map_digitValue?_of_mem :
    ∀ c ∈ digits, ∃ n < 16, (String.utf8EncodeChar c).map digitValue? = [some n] ∧
      c.toLower = n.digitChar := by
  -- What is decided goes through the digits, not through all characters.
  have hall : digits.all (fun c => decide (∃ n : Nat, n < 16 ∧
      (String.utf8EncodeChar c).map digitValue? = [some n] ∧ c.toLower = n.digitChar)) = true := by
    decide +kernel
  intro c hc
  exact of_decide_eq_true (List.all_eq_true.1 hall c hc)

lemma digitValue?_of_ascii :
    ∀ n < 128, Char.ofNat n ∉ digits → digitValue? (UInt8.ofNat n) = none := by
  decide +kernel

lemma digitValue?_of_le {n : Nat} (hn : 128 ≤ n) (hfits : n < 256) :
    digitValue? (UInt8.ofNat n) = none := by
  have hbyte : (UInt8.ofNat n).toNat = n := UInt8.toNat_ofNat_of_lt' hfits
  rw [digitValue?, hbyte, if_neg (by omega), if_neg (by omega), if_neg (by omega)]

/-- No other character has an encoding that is read as digits. -/
lemma none_mem_of_notMem {c : Char} (h : c ∉ digits) :
    none ∈ (String.utf8EncodeChar c).map digitValue? := by
  have hchar : Char.ofNat c.val.toNat = c := Char.ofNat_toNat c
  rw [← hchar] at h
  unfold String.utf8EncodeChar
  generalize c.val.toNat = n at h
  dsimp only
  -- The first byte of a longer encoding is beyond those of the ASCII characters.
  split_ifs with hascii
  · exact List.mem_map.2 ⟨_, List.mem_cons_self, digitValue?_of_ascii n (by omega) h⟩
  all_goals exact List.mem_map.2 ⟨_, List.mem_cons_self, digitValue?_of_le (by omega) (by omega)⟩

lemma map_digitValue?_utf8_iff {cs : List Char} {ns : List Nat} (hns : ∀ n ∈ ns, n < 16) :
    (cs.flatMap String.utf8EncodeChar).map digitValue? = ns.map some ↔
      (∀ c ∈ cs, c ∈ digits) ∧ cs.map Char.toLower = ns.map Nat.digitChar := by
  induction cs generalizing ns with
  | nil => simp
  | cons c cs ih =>
    rw [List.flatMap_cons, List.map_append, List.forall_mem_cons, List.map_cons]
    by_cases hc : c ∈ digits
    · obtain ⟨m, hm, hvalue, hlower⟩ := map_digitValue?_of_mem c hc
      rw [hvalue, hlower, List.singleton_append]
      cases ns with
      | nil => simp
      | cons n ns =>
        obtain ⟨hn, hns⟩ := List.forall_mem_cons.1 hns
        have hsame : some m = some n ↔ m.digitChar = n.digitChar := by
          rw [← digitValue?_digitChar m hm, ← digitValue?_digitChar n hn]
          constructor
          · intro heq
            rw [digitValue?_digitChar m hm, digitValue?_digitChar n hn] at heq
            rw [Option.some.inj heq]
          · intro heq
            rw [heq]
        simp only [List.map_cons, List.cons.injEq, hsame, ih hns, hc, true_and]
        exact and_left_comm
    · simp only [hc, false_and, iff_false]
      intro heq
      have hnone := List.mem_append_left ((cs.flatMap String.utf8EncodeChar).map digitValue?)
        (none_mem_of_notMem hc)
      rw [heq] at hnone
      simp at hnone

/-- Bytes are read from their digits, in either case, and from no other text. -/
theorem decode_eq_ok_iff {text : String} {bytes : Bytes} :
    decode text = .ok bytes ↔ (∀ c ∈ text.toList, c ∈ digits) ∧
      text.toList.map Char.toLower = (encode bytes).toList := by
  rw [toList_encode, ← map_digitValue?_utf8_iff lt_of_mem_nibbles]
  constructor
  · intro h
    rw [decode] at h
    split at h
    · cases h
    · exact map_digitValue?_of_decodeFrom h
  · intro h
    have hdigits := decodeFrom_of_map_digitValue? h 0
    have hlength : (utf8 text).length = 2 * bytes.length := by
      have := congrArg List.length h
      rw [List.length_map, List.length_map, length_nibbles] at this
      exact this
    rw [decode, if_neg (by omega)]
    exact hdigits

lemma exists_values {cs : List Char} (h : ∀ c ∈ cs, c ∈ digits) :
    ∃ ns : List Nat, (∀ n ∈ ns, n < 16) ∧ cs.map Char.toLower = ns.map Nat.digitChar := by
  induction cs with
  | nil => exact ⟨[], by simp, rfl⟩
  | cons c cs ih =>
    obtain ⟨hc, hcs⟩ := List.forall_mem_cons.1 h
    obtain ⟨n, hn, -, hlower⟩ := map_digitValue?_of_mem c hc
    obtain ⟨ns, hns, hrest⟩ := ih hcs
    refine ⟨n :: ns, List.forall_mem_cons.2 ⟨hn, hns⟩, ?_⟩
    rw [List.map_cons, List.map_cons, hlower, hrest]

/-- An even number of digits is what some bytes are read from. -/
lemma exists_decode_eq_ok {text : String} (heven : text.length % 2 = 0)
    (hdigits : ∀ c ∈ text.toList, c ∈ digits) : ∃ bytes, decode text = .ok bytes := by
  obtain ⟨ns, hns, hlower⟩ := exists_values hdigits
  have hlength : text.length = ns.length := by
    simpa [String.length_toList] using congrArg List.length hlower
  obtain ⟨bytes, rfl⟩ := exists_nibbles (hlength ▸ heven) hns
  exact ⟨bytes, decode_eq_ok_iff.2 ⟨hdigits, hlower.trans (toList_encode bytes).symm⟩⟩

lemma length_of_decode {text : String} {bytes : Bytes} (h : decode text = .ok bytes) :
    text.length = 2 * bytes.length := by
  have hlower := (decode_eq_ok_iff.1 h).2
  rw [toList_encode] at hlower
  simpa [length_nibbles, String.length_toList] using congrArg List.length hlower

lemma decodeFixed?_eq_some_iff {n : Nat} {text : String} {bytes : FixedBytes n} :
    decodeFixed? n text = some bytes ↔ decode text = .ok bytes.toList := by
  rw [decodeFixed?, decode?]
  cases decode text with
  | error fault => simp [Except.toOption]
  | ok found =>
    simp only [Except.toOption, Option.bind_some, FixedBytes.ofList?_eq_some_iff, Except.ok.injEq]
    exact eq_comm

end Hex

/-! ### Numerals -/

namespace Numeral

/-- One or more decimal digits, after a plus sign or without one, and the number that they name. -/
inductive Spells : List Char → Nat → Prop
  | plain {cs : List Char} (some : cs ≠ []) (digits : ∀ c ∈ cs, c.isDigit = true) :
      Spells cs (Nat.ofDigitChars 10 cs 0)
  | signed {cs : List Char} (some : cs ≠ []) (digits : ∀ c ∈ cs, c.isDigit = true) :
      Spells ('+' :: cs) (Nat.ofDigitChars 10 cs 0)

lemma Spells.colon_notMem {cs : List Char} {n : Nat} (h : Spells cs n) : ':' ∉ cs := by
  cases h with
  | plain _ hdigits => exact fun hcolon => absurd (hdigits _ hcolon) (by decide)
  | signed _ hdigits =>
    intro hcolon
    rcases List.mem_cons.1 hcolon with heq | hcolon
    · cases heq
    · exact absurd (hdigits _ hcolon) (by decide)

lemma digits?_eq_some_iff {cs : List Char} {n : Nat} :
    digits? cs = some n ↔
      cs ≠ [] ∧ (∀ c ∈ cs, c.isDigit = true) ∧ Nat.ofDigitChars 10 cs 0 = n := by
  simp only [digits?, List.all_eq_true, Option.ite_none_right_eq_some, Option.some.injEq,
    and_assoc]

lemma natural?_eq_some_iff {cs : List Char} {n : Nat} : natural? cs = some n ↔ Spells cs n := by
  constructor
  · intro h
    unfold natural? at h
    split at h
    · obtain ⟨hsome, hdigits, rfl⟩ := digits?_eq_some_iff.1 h
      exact .signed hsome hdigits
    · obtain ⟨hsome, hdigits, rfl⟩ := digits?_eq_some_iff.1 h
      exact .plain hsome hdigits
  · intro h
    cases h with
    | signed hsome hdigits => exact digits?_eq_some_iff.2 ⟨hsome, hdigits, rfl⟩
    | @plain cs hsome hdigits =>
      obtain ⟨c, cs, rfl⟩ := List.exists_cons_of_ne_nil hsome
      rw [natural?_of_isDigit (hdigits c List.mem_cons_self)]
      exact digits?_eq_some_iff.2 ⟨hsome, hdigits, rfl⟩

theorem word?_eq_some_iff {w : Nat} {cs : List Char} {x : BitVec w} :
    word? w cs = some x ↔ Spells cs x.toNat := by
  simp only [word?, Option.bind_eq_some_iff, natural?_eq_some_iff, Word.ofNat?_eq_some_iff]
  constructor
  · rintro ⟨n, hspells, rfl⟩
    exact hspells
  · intro h
    exact ⟨_, h, rfl⟩

lemma word?_eq_none_iff {w : Nat} {cs : List Char} :
    word? w cs = none ↔ ∀ x : BitVec w, ¬Spells cs x.toNat := by
  simp only [Option.eq_none_iff_forall_ne_some, ne_eq, word?_eq_some_iff]

lemma splitColon?_eq_none {text : String} (h : ':' ∉ text.toList) : splitColon? text = none := by
  have hall : ∀ c ∈ text.toList, decide (c ≠ ':') = true := by
    intro c hc
    rw [decide_eq_true_eq]
    rintro rfl
    exact h hc
  rw [splitColon?, List.dropWhile_eq_nil_iff.2 hall]

/-- A text with a colon has a first one. -/
lemma exists_split_of_mem {text : String} (h : ':' ∈ text.toList) :
    ∃ before after : String, text = before ++ ":" ++ after ∧ ':' ∉ before.toList := by
  obtain ⟨before, after, htext, hfirst⟩ := List.eq_append_cons_of_mem h
  refine ⟨String.ofList before, String.ofList after, ?_, by rwa [String.toList_ofList]⟩
  apply String.toList_injective
  rw [htext]
  simp

end Numeral

/-! ### Readers and their texts -/

/-- Values of a type are read from the texts that spell them and other texts are refused. What is
written for a sound value spells it, only sound values are read, and texts with one value come down
to one text, that of the value. -/
structure Legible {α : Type} (parse : String → Outcome α) (write : α → String) (Sound : α → Prop)
    (Spells : String → α → Prop) (Refuses : String → Refusal → Prop) : Prop where
  read : ∀ text a, parse text = .ok a ↔ Spells text a
  refused : ∀ text refusal, parse text = .error refusal ↔ Refuses text refusal
  written : ∀ a, Sound a → parse (write a) = .ok a
  sound : ∀ text a, parse text = .ok a → Sound a
  normal : ∀ text other a b, parse text = .ok a → parse other = .ok b →
    (write a = write b ↔ a = b)

/-- What is read back is told apart by its text. -/
lemma write_eq_iff {α : Type} {parse : String → Outcome α} {write : α → String} {a b : α}
    (ha : parse (write a) = .ok a) (hb : parse (write b) = .ok b) : write a = write b ↔ a = b := by
  constructor
  · intro h
    rw [h, hb] at ha
    exact (Except.ok.inj ha).symm
  · rintro rfl
    rfl

/-- A reader is legible where its acceptance, its refusals and its written texts are known. -/
lemma Legible.of {α : Type} {parse : String → Outcome α} {write : α → String} {Sound : α → Prop}
    {Spells : String → α → Prop} {Refuses : String → Refusal → Prop}
    (read : ∀ text a, parse text = .ok a ↔ Spells text a)
    (refused : ∀ text refusal, parse text = .error refusal ↔ Refuses text refusal)
    (written : ∀ a, Sound a → parse (write a) = .ok a)
    (sound : ∀ text a, parse text = .ok a → Sound a) :
    Legible parse write Sound Spells Refuses where
  read := read
  refused := refused
  written := written
  sound := sound
  normal text other a b ha hb :=
    write_eq_iff (written a (sound text a ha)) (written b (sound other b hb))

namespace Txid

/-- Sixty-four hexadecimal digits of either case. -/
def IsText (text : String) : Prop := text.length = 64 ∧ ∀ c ∈ text.toList, c ∈ Hex.digits

lemma IsText.colon_notMem {text : String} (h : IsText text) : ':' ∉ text.toList := by
  intro hcolon
  exact absurd (h.2 _ hcolon) (by decide)

/-- In lower case the text is that of the identifier. -/
def Spells (text : String) (txid : Txid) : Prop :=
  IsText text ∧ text.toList.map Char.toLower = txid.text.toList

def Refuses (text : String) (refusal : Refusal) : Prop :=
  ¬IsText text ∧ refusal = .invalidTxid text

lemma parse_eq_ok_iff_decode {text : String} {txid : Txid} :
    parse text = .ok txid ↔ Hex.decode text = .ok txid.bytes.toList := by
  rw [← Hex.decodeFixed?_eq_some_iff, parse]
  cases Hex.decodeFixed? 32 text with
  | none => simp
  | some bytes =>
    obtain ⟨own⟩ := txid
    simp

theorem parse_eq_ok_iff {text : String} {txid : Txid} :
    parse text = .ok txid ↔ Spells text txid := by
  rw [parse_eq_ok_iff_decode, Spells, IsText, and_assoc]
  constructor
  · intro h
    refine ⟨?_, Hex.decode_eq_ok_iff.1 h⟩
    rw [Hex.length_of_decode h, txid.bytes.length_toList]
  · rintro ⟨-, hspells⟩
    exact Hex.decode_eq_ok_iff.2 hspells

lemma exists_parse_eq_ok_iff {text : String} : (∃ txid, parse text = .ok txid) ↔ IsText text := by
  constructor
  · rintro ⟨txid, h⟩
    exact (parse_eq_ok_iff.1 h).1
  · rintro ⟨hlength, hdigits⟩
    obtain ⟨bytes, hbytes⟩ := Hex.exists_decode_eq_ok (by omega) hdigits
    have h32 : bytes.length = 32 := by
      have := Hex.length_of_decode hbytes
      omega
    exact ⟨⟨⟨bytes, h32⟩⟩, parse_eq_ok_iff_decode.2 hbytes⟩

theorem parse_eq_error_iff {text : String} {refusal : Refusal} :
    parse text = .error refusal ↔ Refuses text refusal := by
  rw [Refuses, ← exists_parse_eq_ok_iff, parse]
  cases Hex.decodeFixed? 32 text with
  | none => simp [eq_comm]
  | some bytes => simp

end Txid

namespace OutPoint

/-- The text of the transaction, a colon, and the number of the output. -/
inductive Spells : String → OutPoint → Prop
  | mk {txid vout : String} {o : OutPoint} (txidSpells : Txid.Spells txid o.txid)
      (voutSpells : Numeral.Spells vout.toList o.vout.toNat) : Spells (txid ++ ":" ++ vout) o

/-- Why a text names no outpoint; what stands before the first colon is judged first. -/
inductive Refuses : String → Refusal → Prop
  | undivided {text : String} (undivided : ':' ∉ text.toList) : Refuses text .invalidInput
  | txid {before after : String} (first : ':' ∉ before.toList) (txid : ¬Txid.IsText before) :
      Refuses (before ++ ":" ++ after) (.invalidTxid before)
  | vout {before after : String} (txid : Txid.IsText before)
      (vout : ∀ vout : BitVec 32, ¬Numeral.Spells after.toList vout.toNat) :
      Refuses (before ++ ":" ++ after) .invalidNumeral

lemma parse_undivided {text : String} (h : ':' ∉ text.toList) :
    parse text = .error .invalidInput := by
  rw [parse, Numeral.splitColon?_eq_none h]
  rfl

lemma parse_divided {before : String} (h : ':' ∉ before.toList) (after : String) :
    parse (before ++ ":" ++ after) = Txid.parse before >>= fun txid =>
      Outcome.ofOption .invalidNumeral (Numeral.word? 32 after.toList) >>= fun vout =>
      .ok ⟨txid, vout⟩ := by
  rw [parse, Numeral.splitColon?_append h]
  simp only [Outcome.ofOption, String.ofList_toList, bind, Except.bind, pure, Except.pure]

theorem parse_eq_ok_iff {text : String} {o : OutPoint} : parse text = .ok o ↔ Spells text o := by
  constructor
  · intro h
    by_cases hcolon : ':' ∈ text.toList
    · obtain ⟨before, after, rfl, hfirst⟩ := Numeral.exists_split_of_mem hcolon
      simp only [parse_divided hfirst, Outcome.bind_eq_ok_iff, Txid.parse_eq_ok_iff,
        Outcome.ofOption_eq_ok_iff, Numeral.word?_eq_some_iff, Except.ok.injEq] at h
      obtain ⟨txid, htxid, vout, hvout, rfl⟩ := h
      exact .mk htxid hvout
    · rw [parse_undivided hcolon] at h
      cases h
  · rintro ⟨htxid, hvout⟩
    rw [parse_divided htxid.1.colon_notMem]
    simp only [Outcome.bind_eq_ok_iff, Txid.parse_eq_ok_iff, Outcome.ofOption_eq_ok_iff,
      Numeral.word?_eq_some_iff, Except.ok.injEq]
    exact ⟨_, htxid, _, hvout, rfl⟩

theorem parse_eq_error_iff {text : String} {refusal : Refusal} :
    parse text = .error refusal ↔ Refuses text refusal := by
  constructor
  · intro h
    by_cases hcolon : ':' ∈ text.toList
    · obtain ⟨before, after, rfl, hfirst⟩ := Numeral.exists_split_of_mem hcolon
      simp only [parse_divided hfirst, Outcome.bind_eq_error_iff, Txid.parse_eq_error_iff,
        Txid.parse_eq_ok_iff, Outcome.ofOption_eq_error_iff, Numeral.word?_eq_none_iff,
        reduceCtorEq, and_false, exists_false, or_false] at h
      rcases h with ⟨htxid, rfl⟩ | ⟨txid, htxid, hvout, rfl⟩
      · exact .txid hfirst htxid
      · exact .vout htxid.1 hvout
    · rw [parse_undivided hcolon] at h
      cases h
      exact .undivided hcolon
  · intro h
    cases h with
    | undivided hcolon => exact parse_undivided hcolon
    | @txid before after hfirst htxid =>
      rw [parse_divided hfirst, Outcome.bind_eq_error_iff]
      exact .inl (Txid.parse_eq_error_iff.2 ⟨htxid, rfl⟩)
    | @vout before after htxid hvout =>
      obtain ⟨txid, hparse⟩ := Txid.exists_parse_eq_ok_iff.2 htxid
      rw [parse_divided htxid.colon_notMem, hparse, Numeral.word?_eq_none_iff.2 hvout]
      rfl

end OutPoint

namespace CoinId

/-- No text at all for the native coin, or block and transaction with a colon between them. -/
inductive Spells : String → CoinId → Prop
  | blank : Spells "" .native
  | position {before after : String} {block : BitVec 64} {tx : BitVec 32}
      (blockSpells : Numeral.Spells before.toList block.toNat)
      (txSpells : Numeral.Spells after.toList tx.toNat) (etched : block.toNat = 0 → tx.toNat = 0) :
      Spells (before ++ ":" ++ after) (.ofPosition block tx)

def Refuses (text : String) (refusal : Refusal) : Prop :=
  (∀ id, ¬Spells text id) ∧ refusal = .invalidRuneId

/-- A block and a position in it lead to an asset that may exist unless only the block is zero. -/
lemma inGenesisBlock_ofPosition_iff (block : BitVec 64) (tx : BitVec 32) :
    (ofPosition block tx).inGenesisBlock = false ↔ (block.toNat = 0 → tx.toNat = 0) := by
  constructor
  · intro h hblock
    by_contra htx
    rw [ofPosition, if_neg fun hzero => htx hzero.2, inGenesisBlock, decide_eq_false_iff_not] at h
    exact h hblock
  · exact fun h => inGenesisBlock_ofPosition fun hzero => hzero.2 (h hzero.1)

lemma refusesOnly_parse (text : String) : (parse text).RefusesOnly (· = .invalidRuneId) := by
  simp [parse]

lemma parse_divided_eq_ok_iff {before after : String} {id : CoinId} (h : ':' ∉ before.toList) :
    parse (before ++ ":" ++ after) = .ok id ↔
      ∃ block tx, Numeral.Spells before.toList (BitVec.toNat block) ∧
        Numeral.Spells after.toList (BitVec.toNat tx) ∧ (block.toNat = 0 → tx.toNat = 0) ∧
        ofPosition block tx = id := by
  have hsome : ¬(before ++ ":" ++ after).isEmpty = true := by simp
  rw [parse, if_neg hsome, Numeral.splitColon?_append h]
  simp only [Outcome.bind_eq_ok_iff, Outcome.ofOption_eq_ok_iff, Option.some.injEq,
    Prod.exists, Prod.mk.injEq, Numeral.word?_eq_some_iff, Outcome.unless_eq_ok_iff,
    Outcome.pure_eq_ok_iff]
  constructor
  · rintro ⟨_, _, ⟨rfl, rfl⟩, block, hblock, tx, htx, hetched, rfl⟩
    exact ⟨block, tx, hblock, htx, fun hzero => not_not.1 fun htx => hetched ⟨hzero, htx⟩, rfl⟩
  · rintro ⟨block, tx, hblock, htx, hetched, rfl⟩
    exact ⟨_, _, ⟨rfl, rfl⟩, block, hblock, tx, htx, fun h => h.2 (hetched h.1), rfl⟩

theorem parse_eq_ok_iff {text : String} {id : CoinId} : parse text = .ok id ↔ Spells text id := by
  constructor
  · intro h
    by_cases hsome : text = ""
    · subst hsome
      cases h
      exact .blank
    · by_cases hcolon : ':' ∈ text.toList
      · obtain ⟨before, after, rfl, hfirst⟩ := Numeral.exists_split_of_mem hcolon
        obtain ⟨block, tx, hblock, htx, hetched, rfl⟩ := (parse_divided_eq_ok_iff hfirst).1 h
        exact .position hblock htx hetched
      · rw [parse, if_neg (by simpa using hsome), Numeral.splitColon?_eq_none hcolon] at h
        cases h
  · intro h
    cases h with
    | blank => rfl
    | @position before after block tx hblock htx hetched =>
      exact (parse_divided_eq_ok_iff hblock.colon_notMem).2 ⟨block, tx, hblock, htx, hetched, rfl⟩

theorem parse_eq_error_iff {text : String} {refusal : Refusal} :
    parse text = .error refusal ↔ Refuses text refusal := by
  simp only [Refuses, ← parse_eq_ok_iff]
  cases hparse : parse text with
  | ok id => simp
  | error cause =>
    obtain rfl := refusesOnly_parse text cause hparse
    simp [eq_comm]

end CoinId

/-- Transactions, outpoints and assets are read from just the texts that spell them, all other texts
are refused with their own cause, and what is written is the normal form of the texts with one
value. The assets that can be written are all that are read, and all that a block and a position in
it lead to, unless the block is the first and the position is not. -/
theorem identifiers_legible :
    Legible Txid.parse Txid.text (fun _ => True) Txid.Spells Txid.Refuses ∧
    Legible OutPoint.parse OutPoint.text (fun _ => True) OutPoint.Spells OutPoint.Refuses ∧
    Legible CoinId.parse CoinId.text (fun id => id.inGenesisBlock = false) CoinId.Spells
      CoinId.Refuses ∧
    ∀ block tx, (CoinId.ofPosition block tx).inGenesisBlock = false ↔
      (block.toNat = 0 → tx.toNat = 0) := by
  refine ⟨?txid, ?outpoint, ?coin, CoinId.inGenesisBlock_ofPosition_iff⟩
  case txid =>
    exact .of (fun _ _ => Txid.parse_eq_ok_iff) (fun _ _ => Txid.parse_eq_error_iff)
      (fun txid _ => Txid.parse_text txid) fun _ _ _ => trivial
  case outpoint =>
    exact .of (fun _ _ => OutPoint.parse_eq_ok_iff) (fun _ _ => OutPoint.parse_eq_error_iff)
      (fun o _ => OutPoint.parse_text o) fun _ _ _ => trivial
  case coin =>
    exact .of (fun _ _ => CoinId.parse_eq_ok_iff) (fun _ _ => CoinId.parse_eq_error_iff)
      (fun _ hid => CoinId.parse_text hid) fun _ _ h => CoinId.inGenesisBlock_of_parse h

end RuneSettlement
