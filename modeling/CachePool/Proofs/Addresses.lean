/-
# Addresses that read back

A host is written in brackets, bare with its colons, or in front of its port.  The text of an
address puts a host in brackets if it holds a colon, and this is all it looks at: a closing
bracket in such a host ends it too early, and a host without a colon that begins with white
space or an opening bracket is not read as it was.  So an address reads back from its text
just if it has none of these faults.

A client that is opened with a list reads the texts of the addresses in it, one that gets a new
list does not; both have the same servers just if all addresses read back.

* `Form` : the ways to write a host, with a port or without;
* `ServerAddress.parse_ok_iff` : what is read from an entry;
* `ServerAddress.Legible`, `ServerAddress.parse_characters_iff` : the addresses that read back;
* `Client.legible_lists_installed` : what this means for the servers of a client.
-/
import Mathlib.Data.List.DropRight
import CachePool.Proofs.Script
import CachePool.Proofs.Sessions

namespace CachePool

/-! ## Numbers -/

namespace Decimal

/-- The value of a digit. -/
theorem digit?_of_isDigit {c : Char} (hdigit : c.isDigit = true) :
    digit? c = some (c.toNat - '0'.toNat) := by
  have hrange : '0' ≤ c ∧ c ≤ '9' := by
    simpa [Char.isDigit, Char.le_def] using hdigit
  rw [digit?, if_pos hrange]

/-- The text of a number has digits only. -/
theorem isDigit_of_mem_digits {number : Nat} {c : Char} (hmem : c ∈ digits number) :
    c.isDigit = true :=
  Nat.isDigit_of_mem_toDigits (by decide) (by decide) hmem

/-- Digits are read as their number, if it is no larger than the limit. -/
theorem readDigits_eq {limit value : Nat} {text : List Char}
    (hdigits : ∀ c ∈ text, c.isDigit = true)
    (hlimit : Nat.ofDigitChars 10 text value ≤ limit) :
    readDigits limit value text = .ok (Nat.ofDigitChars 10 text value) := by
  induction text generalizing value with
  | nil => rfl
  | cons c text ih =>
      -- the number read so far is no larger than the whole one
      have hvalue : 10 * value + (c.toNat - '0'.toNat) ≤ limit := by
        refine Nat.le_trans ?_ hlimit
        rw [Nat.ofDigitChars_cons, Nat.ofDigitChars_eq_ofDigitChars_zero]
        exact (Nat.le_mul_of_pos_left _ (Nat.pow_pos (by decide))).trans (Nat.le_add_right _ _)
      rw [readDigits, digit?_of_isDigit (hdigits c List.mem_cons_self)]
      dsimp only
      rw [Nat.mul_comm value, if_neg (Nat.not_lt.mpr hvalue)]
      exact ih (fun other hmem => hdigits other (List.mem_cons_of_mem _ hmem)) hlimit

/-- The digits of a number are read as the number. -/
theorem parse_digits {limit number : Nat} (hlimit : number ≤ limit) :
    parse limit (digits number) = .ok number := by
  have hnumber : Nat.ofDigitChars 10 (digits number) 0 = number := Nat.ofDigitChars_ten_toDigits
  have hread := @readDigits_eq limit 0 _ (fun _ => @isDigit_of_mem_digits number _)
    (hnumber.symm ▸ hlimit)
  rw [hnumber] at hread
  have hfirst : ∀ c ∈ digits number, c ≠ '+' := by
    rintro c hmem rfl
    cases isDigit_of_mem_digits hmem
  unfold parse
  split
  · rename_i hnone
    exact absurd hnone Nat.toDigits_ne_nil
  · rename_i hplus
    exact absurd rfl (hfirst '+' (hplus ▸ List.mem_cons_self))
  · rename_i hplus
    exact absurd rfl (hfirst '+' (hplus ▸ List.mem_cons_self))
  · exact hread

end Decimal

/-! ## White space at the ends -/

namespace Text

variable {text : List Char}

/-- Trimming takes white space from both ends. -/
theorem trim_eq (text : List Char) :
    trim text = (text.dropWhile isBlank).rdropWhile isBlank := rfl

/-- What is left of a text does not begin with white space. -/
theorem isBlank_head_trim {first : Char} (hfirst : first ∈ (trim text).head?) :
    isBlank first = false := by
  rw [trim_eq] at hfirst
  obtain ⟨back, hback⟩ := List.rdropWhile_prefix isBlank (text.dropWhile isBlank)
  have hhead : first ∈ (text.dropWhile isBlank).head? := by
    rw [← hback]
    exact List.mem_head?_append_of_mem_head? hfirst
  have hkept := List.head?_dropWhile_not isBlank text
  rw [Option.mem_def.mp hhead] at hkept
  exact hkept

/-- Characters that are left were there. -/
theorem mem_of_mem_trim {c : Char} (hmem : c ∈ trim text) : c ∈ text :=
  (List.dropWhile_sublist _).subset ((List.rdropWhile_prefix isBlank _).subset hmem)

/-- Characters that are no white space are left. -/
theorem mem_trim {c : Char} (hmem : c ∈ text) (hblank : isBlank c = false) : c ∈ trim text := by
  have hkept : ∀ {front : List Char}, c ∈ front → c ∈ front.dropWhile isBlank := by
    intro front hfront
    rw [← List.takeWhile_append_dropWhile (p := isBlank) (l := front), List.mem_append] at hfront
    refine hfront.resolve_left fun htaken => ?_
    rw [List.mem_takeWhile_imp htaken] at hblank
    cases hblank
  unfold trim
  rw [List.mem_reverse]
  exact hkept (List.mem_reverse.mpr (hkept hmem))

/-- A text without white space at its ends stays as it is. -/
theorem trim_eq_self (hhead : ∀ first ∈ text.head?, isBlank first = false)
    (hlast : ∀ last ∈ text.getLast?, isBlank last = false) : trim text = text := by
  have hfront : text.dropWhile isBlank = text := by
    rw [List.dropWhile_eq_self_iff]
    intro hsome
    rw [hhead _ (List.head?_eq_getElem? ▸ List.getElem?_eq_getElem hsome)]
    exact Bool.false_ne_true
  rw [trim_eq, hfront]
  rw [List.rdropWhile_eq_self_iff]
  intro hsome
  rw [hlast _ (List.getLast?_eq_some_getLast hsome)]
  exact Bool.false_ne_true

/-- A digit is no white space. -/
theorem isBlank_of_isDigit {c : Char} (hdigit : c.isDigit = true) : isBlank c = false := by
  have hrange : 48 ≤ c.toNat ∧ c.toNat ≤ 57 := by
    simpa [Char.isDigit, UInt32.le_iff_toNat_le] using hdigit
  unfold isBlank
  simp only [Bool.or_eq_false_iff, Bool.and_eq_false_iff, decide_eq_false_iff_not,
    beq_eq_false_iff_ne]
  omega

end Text

/-! ## Entries -/

namespace ServerAddress

/-- A text is split at the first separator in it. -/
theorem splitFirst_eq_some_iff {separator : Char} {text before after : List Char} :
    splitFirst separator text = some (before, after) ↔
      text = before ++ separator :: after ∧ separator ∉ before := by
  induction text generalizing before with
  | nil => simp [splitFirst]
  | cons c text ih =>
      unfold splitFirst
      by_cases hc : c = separator
      · subst hc
        rw [if_pos rfl, Option.some.injEq, Prod.mk.injEq]
        constructor
        · rintro ⟨rfl, rfl⟩
          exact ⟨rfl, List.not_mem_nil⟩
        · rintro ⟨htext, hnone⟩
          cases before with
          | nil => exact ⟨rfl, (List.cons.inj htext).2⟩
          | cons first before =>
              rw [(List.cons.inj htext).1] at hnone
              exact absurd List.mem_cons_self hnone
      · rw [if_neg hc, Option.map_eq_some_iff]
        constructor
        · rintro ⟨⟨front, back⟩, hsplit, hsame⟩
          cases hsame
          obtain ⟨rfl, hnone⟩ := ih.mp hsplit
          exact ⟨rfl, List.not_mem_cons_of_ne_of_not_mem (Ne.symm hc) hnone⟩
        · rintro ⟨htext, hnone⟩
          cases before with
          | nil => exact absurd (List.cons.inj htext).1 hc
          | cons first before =>
              obtain ⟨rfl, rfl⟩ := List.cons.inj htext
              exact ⟨(before, after), ih.mpr ⟨rfl, fun hmem =>
                hnone (List.mem_cons_of_mem _ hmem)⟩, rfl⟩

/-- A text without a separator is not split. -/
theorem splitFirst_eq_none_iff {separator : Char} {text : List Char} :
    splitFirst separator text = none ↔ separator ∉ text := by
  induction text with
  | nil => simp [splitFirst]
  | cons c text ih =>
      unfold splitFirst
      by_cases hc : c = separator
      · simp [hc]
      · simp [hc, ih, Ne.symm hc]

end ServerAddress

/-- The ways to write a host: in brackets, bare with several colons, or with one colon at most;
the first and the last of them with a port or without. -/
inductive Form : List Char → List Char → Option (List Char) → Prop
  | bracketed {host : List Char} (hhost : ']' ∉ host) : Form ('[' :: (host ++ [']'])) host none
  | bracketedPort {host port : List Char} (hhost : ']' ∉ host) :
      Form ('[' :: (host ++ ']' :: ':' :: port)) host (some port)
  | bare {host : List Char} (hhead : '[' ∉ host.head?) (hcolons : 1 < host.count ':') :
      Form host host none
  | plain {host : List Char} (hhead : '[' ∉ host.head?) (hcolons : ':' ∉ host) :
      Form host host none
  | plainPort {host port : List Char} (hhead : '[' ∉ (host ++ ':' :: port).head?)
      (hhost : ':' ∉ host) (hport : ':' ∉ port) : Form (host ++ ':' :: port) host (some port)

/-- An entry that names a host is not empty. -/
theorem Form.entry_ne_nil {entry host : List Char} {port : Option (List Char)}
    (hform : Form entry host port) (hhost : host ≠ []) : entry ≠ [] := by
  cases hform with
  | bracketed | bracketedPort => exact List.cons_ne_nil _ _
  | bare | plain => exact hhost
  | plainPort => exact List.append_ne_nil_of_left_ne_nil hhost _

namespace ServerAddress

variable {address : ServerAddress}

/-- An entry that begins with a bracket is split after the first closing one. -/
theorem splitEntry_bracket (rest : List Char) :
    splitEntry ('[' :: rest) = match splitFirst ']' rest with
      | none => .error (.unterminatedBracket ('[' :: rest))
      | some (host, []) => .ok (host, none)
      | some (host, ':' :: port) => .ok (host, some port)
      | some _ => .error (.textAfterBracket ('[' :: rest)) := rfl

/-- Other entries are split at a colon, if it is the only one. -/
theorem splitEntry_of_head {entry : List Char} (hhead : '[' ∉ entry.head?) :
    splitEntry entry = if 1 < entry.count ':' then .ok (entry, none) else
      match splitFirst ':' entry with
      | some (host, port) => .ok (host, some port)
      | none => .ok (entry, none) := by
  unfold splitEntry
  split
  · exact absurd rfl hhead
  · rfl

/-- An entry is split as its form says. -/
theorem splitEntry_ok_iff {entry host : List Char} {port : Option (List Char)} :
    splitEntry entry = .ok (host, port) ↔ Form entry host port := by
  constructor
  · intro hsplit
    by_cases hhead : '[' ∈ entry.head?
    · obtain ⟨rest, rfl⟩ := List.head?_eq_some_iff.mp hhead
      rw [splitEntry_bracket] at hsplit
      split at hsplit
      · cases hsplit
      · rename_i before hclose
        cases hsplit
        obtain ⟨rfl, hbefore⟩ := splitFirst_eq_some_iff.mp hclose
        exact .bracketed hbefore
      · rename_i before tail hclose
        cases hsplit
        obtain ⟨rfl, hbefore⟩ := splitFirst_eq_some_iff.mp hclose
        exact .bracketedPort hbefore
      · cases hsplit
    · rw [splitEntry_of_head hhead] at hsplit
      split at hsplit
      · rename_i hcolons
        cases hsplit
        exact .bare hhead hcolons
      rename_i hcolons
      split at hsplit
      · rename_i hcolon
        cases hsplit
        obtain ⟨rfl, hbefore⟩ := splitFirst_eq_some_iff.mp hcolon
        refine .plainPort hhead hbefore fun hafter => hcolons ?_
        have hcount := List.count_pos_iff.mpr hafter
        rw [List.count_append, List.count_cons_self]
        omega
      · rename_i hcolon
        cases hsplit
        exact .plain hhead (splitFirst_eq_none_iff.mp hcolon)
  · intro hform
    cases hform with
    | bracketed hhost => rw [splitEntry_bracket, splitFirst_eq_some_iff.mpr ⟨rfl, hhost⟩]
    | bracketedPort hhost =>
        rw [splitEntry_bracket, splitFirst_eq_some_iff.mpr ⟨rfl, hhost⟩]
        rfl
    | bare hhead hcolons => rw [splitEntry_of_head hhead, if_pos hcolons]
    | plain hhead hcolons =>
        rw [splitEntry_of_head hhead, List.count_eq_zero_of_not_mem hcolons,
          splitFirst_eq_none_iff.mpr hcolons]
        rfl
    | @plainPort _ port hhead hhost hport =>
        have hcount : (host ++ ':' :: port).count ':' = 1 := by
          rw [List.count_append, List.count_cons_self, List.count_eq_zero_of_not_mem hhost,
            List.count_eq_zero_of_not_mem hport]
        rw [splitEntry_of_head hhead, hcount, splitFirst_eq_some_iff.mpr ⟨rfl, hhost⟩]
        rfl

/-- The port of an entry, as it is read. -/
def portOf : Option (List Char) → Option UInt16
  | none => some defaultPort
  | some port => readPort port

/-- What is read from an entry. -/
theorem parse_ok_iff {text : List Char} : parse text = .ok address ↔
    ∃ port, Form (Text.trim text) address.host.toList port ∧ address.host.toList ≠ [] ∧
      portOf port = some address.port := by
  unfold parse
  dsimp only
  constructor
  · intro hparse
    split at hparse
    · cases hparse
    split at hparse
    · cases hparse
    rename_i host port hsplit
    split at hparse
    · cases hparse
    rename_i hhost
    refine ⟨port, ?_⟩
    split at hparse
    · cases hparse
      rw [String.toList_ofList]
      exact ⟨splitEntry_ok_iff.mp hsplit, hhost, rfl⟩
    · split at hparse
      · rename_i hport
        cases hparse
        rw [String.toList_ofList]
        exact ⟨splitEntry_ok_iff.mp hsplit, hhost, hport⟩
      · cases hparse
  · rintro ⟨port, hform, hhost, hport⟩
    rw [if_neg (hform.entry_ne_nil hhost), splitEntry_ok_iff.mpr hform]
    dsimp only
    rw [if_neg hhost, String.ofList_toList]
    cases port with
    | none => rw [Option.some.inj hport]
    | some port =>
        dsimp only
        rw [show readPort port = some address.port from hport]

/-! ## Reading a text back -/

/-- What makes an address readable from its text: no closing bracket stands in a host that is
put in brackets, and one that is not begins with neither an opening bracket nor white space. -/
def Legible (address : ServerAddress) : Prop :=
  if ':' ∈ address.host.toList then ']' ∉ address.host.toList
  else ∀ first ∈ address.host.toList.head?, first ≠ '[' ∧ Text.isBlank first = false

-- by this instance a decision looks at the first character only, and not at every character
instance : DecidablePred Legible := fun address =>
  if hcolon : ':' ∈ address.host.toList then
    decidable_of_iff (']' ∉ address.host.toList) (by rw [Legible, if_pos hcolon])
  else
    @decidable_of_iff _ (∀ first ∈ address.host.toList.head?,
        first ≠ '[' ∧ Text.isBlank first = false)
      (by rw [Legible, if_neg hcolon]) (Option.decidableForallMem _)

/-- The digits of the port are read as the port, if it is not zero. -/
theorem readPort_digits (hport : address.port ≠ 0) :
    readPort (Decimal.digits address.port.toNat) = some address.port := by
  have hlimit : address.port.toNat ≤ UInt16.size - 1 := Nat.le_pred_of_lt address.port.toNat_lt
  have hnumber : address.port.toNat ≠ 0 := fun hzero => hport (UInt16.toNat_inj.mp hzero)
  unfold readPort
  rw [Decimal.parse_digits hlimit]
  dsimp only
  rw [if_neg hnumber, UInt16.ofNat_toNat]

/-- No port has a colon in it, or a bracket. -/
theorem not_mem_digits {c : Char} {number : Nat} (hdigit : c.isDigit = false) :
    c ∉ Decimal.digits number := by
  intro hmem
  rw [Decimal.isDigit_of_mem_digits hmem] at hdigit
  cases hdigit

/-- The text of an address ends in a digit. -/
theorem isBlank_getLast_characters :
    ∀ last ∈ address.characters.getLast?, Text.isBlank last = false := by
  intro last hlast
  have hdigits : last ∈ Decimal.digits address.port.toNat := by
    obtain ⟨front, hfront⟩ : ∃ front, address.characters
        = front ++ Decimal.digits address.port.toNat := by
      unfold characters
      dsimp only
      split
      · exact ⟨'[' :: (address.host.toList ++ [']', ':']), by simp⟩
      · exact ⟨address.host.toList ++ [':'], by simp⟩
    have hsome : Decimal.digits address.port.toNat ≠ [] := Nat.toDigits_ne_nil
    rw [hfront, List.getLast?_append_of_ne_nil _ hsome] at hlast
    exact List.mem_of_mem_getLast? hlast
  exact Text.isBlank_of_isDigit (Decimal.isDigit_of_mem_digits hdigits)

/-- An address with brackets is read from its text just if no bracket closes in its host. -/
theorem parse_bracketed_iff (hhost : address.host.toList ≠ []) (hport : address.port ≠ 0)
    (hcolon : ':' ∈ address.host.toList) :
    parse address.characters = .ok address ↔ ']' ∉ address.host.toList := by
  have hcharacters : address.characters = '[' :: (address.host.toList
      ++ ']' :: ':' :: Decimal.digits address.port.toNat) := by
    unfold characters
    exact if_pos hcolon
  -- the text begins with a bracket and ends in a digit, so it is read as it stands
  have htrim : Text.trim address.characters = address.characters := by
    refine Text.trim_eq_self ?_ isBlank_getLast_characters
    rw [hcharacters]
    rintro first hfirst
    cases hfirst
    decide
  rw [parse_ok_iff, htrim, hcharacters]
  constructor
  · rintro ⟨port, hform, -, -⟩
    generalize hentry : '[' :: _ = entry at hform
    cases hform with
    | bracketed hclose | bracketedPort hclose => exact hclose
    | bare hhead => exact absurd (hentry ▸ rfl) hhead
    | plain _ hcolons => exact absurd hcolon hcolons
    | plainPort _ hcolons => exact absurd hcolon hcolons
  · intro hclose
    exact ⟨some _, .bracketedPort hclose, hhost, readPort_digits hport⟩

/-- An address without brackets is read from its text just if its host begins with neither a
bracket nor white space. -/
theorem parse_plain_iff (hhost : address.host.toList ≠ []) (hport : address.port ≠ 0)
    (hcolon : ':' ∉ address.host.toList) :
    parse address.characters = .ok address ↔
      ∀ first ∈ address.host.toList.head?, first ≠ '[' ∧ Text.isBlank first = false := by
  have hcharacters : address.characters = address.host.toList
      ++ ':' :: Decimal.digits address.port.toNat := by
    unfold characters
    exact if_neg hcolon
  have hhead : address.characters.head? = address.host.toList.head? := by
    rw [hcharacters, List.head?_append_of_ne_nil _ hhost]
  rw [parse_ok_iff]
  constructor
  · rintro ⟨port, hform, -, -⟩
    -- without a bracket that closes, only the form with a port and no brackets is left
    have hunclosed : ']' ∈ Text.trim address.characters → ']' ∈ address.host.toList := by
      intro hmem
      have hsome := Text.mem_of_mem_trim hmem
      rw [hcharacters, List.mem_append] at hsome
      refine hsome.resolve_right fun hdigits => ?_
      exact not_mem_digits (by decide)
        (List.mem_of_ne_of_mem (by decide) hdigits)
    have hseparated : ':' ∈ Text.trim address.characters :=
      Text.mem_trim (hcharacters ▸ List.mem_append_right _ List.mem_cons_self) (by decide)
    have hfirst := @Text.isBlank_head_trim address.characters
    generalize Text.trim address.characters = entry at hform hunclosed hseparated hfirst
    cases hform with
    | bracketed hclose | bracketedPort hclose => exact absurd (hunclosed (by simp)) hclose
    | bare | plain => exact absurd hseparated hcolon
    | plainPort hbracket =>
        rw [List.head?_append_of_ne_nil _ hhost] at hbracket hfirst
        intro first hmem
        exact ⟨fun hsame => hbracket (hsame ▸ hmem), hfirst hmem⟩
  · intro hlegible
    have htrim : Text.trim address.characters = address.characters :=
      Text.trim_eq_self (hhead ▸ fun first hmem => (hlegible first hmem).2)
        isBlank_getLast_characters
    refine ⟨some _, htrim.symm ▸ hcharacters ▸ .plainPort ?_ hcolon
      (not_mem_digits (by decide)), hhost, readPort_digits hport⟩
    rw [← hcharacters, hhead]
    exact fun hmem => (hlegible _ hmem).1 rfl

/-- **An address is read from its text just if it is legible.** -/
theorem parse_characters_iff (hhost : address.host.toList ≠ []) (hport : address.port ≠ 0) :
    parse address.characters = .ok address ↔ address.Legible := by
  unfold Legible
  by_cases hcolon : ':' ∈ address.host.toList
  · rw [if_pos hcolon]
    exact parse_bracketed_iff hhost hport hcolon
  · rw [if_neg hcolon]
    exact parse_plain_iff hhost hport hcolon

/-- A host without brackets and white space makes an address legible. -/
theorem Legible.of_plain (hplain : ∀ c ∈ address.host.toList,
    c ≠ '[' ∧ c ≠ ']' ∧ Text.isBlank c = false) : address.Legible := by
  unfold Legible
  split
  · exact fun hmem => (hplain _ hmem).2.1 rfl
  · intro first hfirst
    obtain ⟨hopen, -, hblank⟩ := hplain first (List.mem_of_mem_head? hfirst)
    exact ⟨hopen, hblank⟩

end ServerAddress

/-! ## What was read can be written -/

namespace Decimal

/-- A number that was read is no larger than the limit. -/
theorem readDigits_le {limit value number : Nat} {text : List Char} (hvalue : value ≤ limit)
    (hread : readDigits limit value text = .ok number) : number ≤ limit := by
  induction text generalizing value with
  | nil =>
      cases hread
      exact hvalue
  | cons c text ih =>
      unfold readDigits at hread
      split at hread
      · cases hread
      split at hread
      · cases hread
      · rename_i hnext
        exact ih (Nat.not_lt.mp hnext) hread

theorem parse_le {limit number : Nat} {text : List Char} (hparse : parse limit text = .ok number) :
    number ≤ limit := by
  unfold parse at hparse
  split at hparse
  · cases hparse
  · cases hparse
  · exact readDigits_le (Nat.zero_le _) hparse
  · exact readDigits_le (Nat.zero_le _) hparse

end Decimal

namespace ServerAddress

/-- No port that was read is zero. -/
theorem readPort_ne_zero {port : List Char} {number : UInt16}
    (hread : readPort port = some number) : number ≠ 0 := by
  unfold readPort at hread
  split at hread
  · rename_i value hvalue
    split at hread
    · cases hread
    · rename_i hsome
      cases hread
      have hlimit : value < UInt16.size := Nat.lt_of_le_pred (by decide) (Decimal.parse_le hvalue)
      intro hzero
      have hnat := congrArg UInt16.toNat hzero
      rw [UInt16.toNat_ofNat_of_lt' hlimit] at hnat
      exact hsome hnat
  · cases hread

/-- An address that was read has a host and a port. -/
theorem host_port_of_parse {text : List Char} (hparse : parse text = .ok address) :
    address.host.toList ≠ [] ∧ address.port ≠ 0 := by
  obtain ⟨port, -, hhost, hport⟩ := parse_ok_iff.mp hparse
  refine ⟨hhost, ?_⟩
  cases port with
  | none =>
      rw [← Option.some.inj hport]
      decide
  | some port => exact readPort_ne_zero hport

/-- **An address that was read reads back from its text just if it is legible.** -/
theorem reads_back_iff {text : List Char} (hparse : parse text = .ok address) :
    parse address.characters = .ok address ↔ address.Legible := by
  obtain ⟨hhost, hport⟩ := host_port_of_parse hparse
  exact parse_characters_iff hhost hport

end ServerAddress

/-! ## Lists of servers -/

namespace ServerList

variable {addresses : List ServerAddress}

/-- Entries are read one by one. -/
theorem parseEntries_ok_iff {entries : List (List Char)} :
    parseEntries entries = .ok addresses ↔
      List.Forall₂ (fun entry address => ServerAddress.parse entry = .ok address)
        entries addresses := by
  induction entries generalizing addresses with
  | nil =>
      rw [List.forall₂_nil_left_iff]
      exact ⟨fun hread => (Except.ok.inj hread).symm, fun hnil => congrArg _ hnil.symm⟩
  | cons entry entries ih =>
      unfold parseEntries
      rw [List.forall₂_cons_left_iff]
      constructor
      · intro hread
        split at hread
        · cases hread
        rename_i address hfirst
        split at hread
        · cases hread
        rename_i others hothers
        cases hread
        exact ⟨address, others, hfirst, ih.mp hothers, rfl⟩
      · rintro ⟨address, others, hfirst, hothers, rfl⟩
        rw [hfirst, ih.mpr hothers]

/-- A list that was read names a server, and each one stands in an entry. -/
theorem parse_ok {servers : ServerList} (hparse : servers.parse = .ok addresses) :
    addresses ≠ [] ∧
      ∀ address ∈ addresses, ∃ entry, ServerAddress.parse entry = .ok address := by
  obtain ⟨entries, hsome, hread⟩ : ∃ entries, entries ≠ [] ∧
      parseEntries entries = .ok addresses := by
    unfold parse at hparse
    split at hparse
    · split at hparse
      · cases hparse
      · exact ⟨_, List.splitOn_ne_nil _ _, hparse⟩
    · split at hparse
      · cases hparse
      · rename_i hsome
        exact ⟨_, fun hnone => hsome (List.map_eq_nil_iff.mp hnone), hparse⟩
  rw [parseEntries_ok_iff] at hread
  constructor
  · rintro rfl
    exact hsome (List.forall₂_nil_right_iff.mp hread)
  · have hwritten : List.Forall₂ (fun address entry => ServerAddress.parse entry = .ok address)
        addresses entries := hread.flip
    exact ((List.forall₂_and_left _ _).mp
      (hwritten.imp fun address entry hentry => ⟨⟨entry, hentry⟩, hentry⟩)).1

/-- Servers are read from their texts just if all of them are legible. -/
theorem parse_texts_iff (hsome : addresses ≠ [])
    (hread : ∀ address ∈ addresses, ∃ entry, ServerAddress.parse entry = .ok address) :
    (entries (addresses.map ServerAddress.text)).parse = .ok addresses ↔
      ∀ address ∈ addresses, address.Legible := by
  unfold parse
  dsimp only
  rw [if_neg (by simpa using hsome), parseEntries_ok_iff, List.map_map, List.forall₂_map_left_iff,
    List.forall₂_same]
  refine forall₂_congr fun address hmem => ?_
  obtain ⟨entry, hentry⟩ := hread address hmem
  rw [← ServerAddress.reads_back_iff hentry, Function.comp_apply, ServerAddress.text,
    String.toList_ofList]

end ServerList

/-! ## Two ways to install a list -/

namespace Client

variable {ω : Type} [Network ω] {addresses : List ServerAddress}

/-- An installed list names the servers that are placed. -/
theorem address_servers_relist (client : Client ω) (closing : List Link) :
    (client.relist addresses closing).servers.map (·.address) = addresses := by
  unfold servers relist Pool.servers
  dsimp only
  rw [Pool.servers_place, List.map_map]
  exact List.zipIdx_map_fst 0 addresses

/-- A client is opened with the servers of a list if their texts are read as they are, and with
others or none if not. -/
theorem connect_installs_iff {servers : ServerList} (hparse : servers.parse = .ok addresses)
    (hdistinct : addresses.Nodup) (net : ω) :
    (∃ opened, connect net servers = .ok opened ∧ opened.servers.map (·.address) = addresses) ↔
      (ServerList.entries (addresses.map ServerAddress.text)).parse = .ok addresses := by
  have hconnect : connect net servers = withConfig net
      { Config.default with servers := addresses.map ServerAddress.text } := by
    unfold connect Config.withServers
    rw [hparse]
  rw [hconnect]
  constructor
  · rintro ⟨opened, hopened, hservers⟩
    obtain ⟨-, others, hothers, hinstall⟩ := withConfig_installs hopened
    obtain ⟨-, -, rfl⟩ := installServers_ok_iff.mp hinstall
    rw [address_servers_relist] at hservers
    rw [← hservers] at hothers ⊢
    exact hothers
  · intro hread
    have hsome := (ServerList.parse_ok hparse).1
    refine ⟨_, ?_, address_servers_relist (blank Config.default.timeouts false net)
      (Pool.leaving .empty addresses)⟩
    unfold withConfig Config.validate Config.addresses
    dsimp only
    rw [hread]
    exact installServers_eq hsome hdistinct

/-- **Legible lists are installed alike.**  An address that was read from an entry reads back
from its text just if it is legible, as every host without brackets and white space is.  A
list without duplicates is installed as it stands in a client that has another one; the
configuration for it names the same servers, and a client that is opened with it has them,
just if all of them are legible. -/
theorem legible_lists_installed :
    (∀ entry address, ServerAddress.parse entry = .ok address →
      (ServerAddress.parse address.characters = .ok address ↔ address.Legible)) ∧
    (∀ address : ServerAddress, (∀ c ∈ address.host.toList,
      c ≠ '[' ∧ c ≠ ']' ∧ Text.isBlank c = false) → address.Legible) ∧
    ∀ servers addresses, ServerList.parse servers = .ok addresses → addresses.Nodup →
      ∀ (net : ω) (client : Client ω), ∃ config listed,
        Config.withServers servers = .ok config ∧ client.setServers servers = (.ok (), listed) ∧
        listed.servers.map (·.address) = addresses ∧
        (config.addresses = .ok addresses ↔ ∀ address ∈ addresses, address.Legible) ∧
        ((∃ opened, connect net servers = .ok opened ∧
            opened.servers.map (·.address) = listed.servers.map (·.address)) ↔
          ∀ address ∈ addresses, address.Legible) := by
  refine ⟨fun entry address hparse => ServerAddress.reads_back_iff hparse,
    fun address hplain => .of_plain hplain,
    fun servers addresses hparse hdistinct net client => ?_⟩
  obtain ⟨hsome, hread⟩ := ServerList.parse_ok hparse
  have htexts := ServerList.parse_texts_iff hsome hread
  refine ⟨{ Config.default with servers := addresses.map ServerAddress.text },
    client.relist addresses (client.pool.leaving addresses), ?_, ?_,
    address_servers_relist client _, htexts, ?_⟩
  · unfold Config.withServers
    rw [hparse]
  · unfold setServers
    rw [hparse]
    dsimp only
    rw [installServers_eq hsome hdistinct]
  · rw [address_servers_relist, connect_installs_iff hparse hdistinct, htexts]

/-- A name and a host with colons are installed either way. -/
theorem legible_lists_installed_colons :
    ServerAddress.parse "::1".toList = .ok ⟨"::1", 11211⟩ ∧
    ServerAddress.parse "[::1]:11211".toList = .ok ⟨"::1", 11211⟩ ∧
    (ServerList.joined "cache:11212, ::1").parse = .ok [⟨"cache", 11212⟩, ⟨"::1", 11211⟩] ∧
    ∃ opened, connect (Script.mk 0 [] []) (.joined "cache:11212, ::1") = .ok opened ∧
      opened.servers.map (·.address) = [⟨"cache", 11212⟩, ⟨"::1", 11211⟩] := by
  obtain ⟨hback, -, hinstalled⟩ := @legible_lists_installed Script _
  have hentry : ServerAddress.parse "::1".toList = .ok ⟨"::1", 11211⟩ := rfl
  have hlist : (ServerList.joined "cache:11212, ::1").parse
      = .ok [⟨"cache", 11212⟩, ⟨"::1", 11211⟩] := rfl
  obtain ⟨config, listed, -, -, hlisted, -, hopened⟩ := hinstalled _ _ hlist (by decide)
    (Script.mk 0 [] []) (Script.mk 0 [] []).opened
  obtain ⟨opened, hconnect, hservers⟩ := hopened.mpr (by decide)
  exact ⟨hentry, (hback _ _ hentry).mpr (by decide), hlist, opened, hconnect,
    hservers.trans hlisted⟩

/-- A closing bracket in a host with colons is read as its end: the server is installed in a
client that has another list, but no client is opened with it. -/
theorem closing_bracket_misread :
    ServerAddress.parse "::1]:11211".toList = .ok ⟨"::1]:11211", 11211⟩ ∧
    (ServerAddress.mk "::1]:11211" 11211).text = "[::1]:11211]:11211" ∧
    (ServerList.entries ["::1]:11211"]).parse = .ok [⟨"::1]:11211", 11211⟩] ∧
    (∃ listed, (Script.mk 0 [] []).opened.setServers (.entries ["::1]:11211"]) = (.ok (), listed) ∧
      listed.servers = [⟨0, ⟨"::1]:11211", 11211⟩⟩]) ∧
    connect (Script.mk 0 [] []) (.entries ["::1]:11211"]) = .error (.config (.address
      (.invalidPort "11211]:11211".toList "[::1]:11211]:11211".toList))) := by
  refine ⟨rfl, rfl, rfl, ⟨_, rfl, rfl⟩, rfl⟩

end Client

end CachePool
