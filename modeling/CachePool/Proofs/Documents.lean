/-
# Documents that read back

A configuration is written as an object with all its fields, and what is written is read as
the configuration again: escapes are undone, numbers keep all their digits, and every field
is found under its name.

What a document gives has been checked.  A client is opened with it unless two of its entries
name one server, which is not looked at before.

* `JsonString.read_encode` : literals read back, whatever characters they hold;
* `Config.readNumber_digits` : so do numbers of 64 bits;
* `Config.read_write` : and whole documents;
* `Client.documents_read_back` : what this means for clients.
-/
import Mathlib.Data.List.NodupEquivFin
import CachePool.Client.Basic
import CachePool.Config.Document
import CachePool.Proofs.Addresses

namespace CachePool

/-! ## Literals -/

namespace JsonString

/-- The ways to write a character in a literal: an escape with a letter, one with four
hexadecimal digits, or the character itself. -/
inductive Written (c : Char) : List Char → Prop
  | letter {letter : Char} (hletter : letter ≠ 'u') (hescape : letterEscape? letter = some c) :
      Written c ['\\', letter]
  | word {h3 h2 h1 h0 : Char} (hword : hexWord? h3 h2 h1 h0 = some c.toNat)
      (hcontrol : c.toNat < 0x20) : Written c ['\\', 'u', h3, h2, h1, h0]
  | plain (hquote : c ≠ '"') (hbackslash : c ≠ '\\') (hprinted : ¬c.toNat < 0x20) : Written c [c]

/-- Controls have four hexadecimal digits, which are read as their number. -/
theorem digits_control : ∀ number < 0x20,
    Hexadecimal.digits 4 number
        = ['0', '0', Nat.digitChar (number / 16), Nat.digitChar (number % 16)] ∧
      hexWord? '0' '0' (Nat.digitChar (number / 16)) (Nat.digitChar (number % 16))
        = some number := by
  decide

/-- Characters are written in one of these ways. -/
theorem written_encodeChar (c : Char) : Written c (encodeChar c) := by
  have hletter {letter escaped : Char} (hother : letter ≠ 'u')
      (hescape : letterEscape? letter = some escaped) (hc : c = escaped) :
      Written c ['\\', letter] := .letter hother (hc ▸ hescape)
  unfold encodeChar
  split
  · exact hletter (by decide) rfl ‹_›
  split
  · exact hletter (by decide) rfl ‹_›
  split
  · exact hletter (by decide) rfl ‹_›
  split
  · exact hletter (by decide) rfl ‹_›
  split
  · exact hletter (by decide) rfl ‹_›
  split
  · exact hletter (by decide) rfl ‹_›
  split
  · exact hletter (by decide) rfl ‹_›
  split
  · rename_i hcontrol
    obtain ⟨hdigits, hword⟩ := digits_control c.toNat hcontrol
    rw [hdigits]
    exact .word hword hcontrol
  · rename_i hquote hbackslash _ _ _ _ _ hprinted
    exact .plain hquote hbackslash hprinted

/-- **A character reads back, however it is written.** -/
theorem Written.readBody {c : Char} {written : List Char} (hwritten : Written c written)
    (rest : List Char) :
    readBody (written ++ rest)
      = (readBody rest).map fun (text, rest) => (c :: text, rest) := by
  cases hwritten with
  | @letter letter hletter hescape =>
      show JsonString.readBody ('\\' :: letter :: rest) = _
      rw [JsonString.readBody, hescape]
      exact fun _ _ _ _ _ hword _ => hletter hword
  | @word h3 h2 h1 h0 hword hcontrol =>
      show JsonString.readBody ('\\' :: 'u' :: h3 :: h2 :: h1 :: h0 :: rest) = _
      rw [JsonString.readBody, hword]
      dsimp only
      rw [if_neg (by omega), if_neg (by omega), Char.ofNat_toNat]
  | plain hquote hbackslash hprinted =>
      show JsonString.readBody (c :: rest) = _
      rw [JsonString.readBody, if_neg (not_or.mpr ⟨hbackslash, hprinted⟩)]
      · exact hquote
      · exact fun _ _ _ _ _ hescape _ => hbackslash hescape
      · exact fun _ _ hescape _ => hbackslash hescape

/-- The body of a literal reads back. -/
theorem readBody_flatMap (text rest : List Char) :
    readBody (text.flatMap encodeChar ++ '"' :: rest) = some (text, rest) := by
  induction text with
  | nil => rfl
  | cons c text ih =>
      rw [List.flatMap_cons, List.append_assoc, (written_encodeChar c).readBody, ih]
      rfl

/-- **A literal reads back as its text.** -/
theorem read_encode (text rest : List Char) : read (encode text ++ rest) = some (text, rest) := by
  unfold encode
  rw [List.cons_append, List.append_assoc]
  exact readBody_flatMap text rest

end JsonString

/-! ## Numbers -/

namespace Decimal

/-- The digits of a number other than zero do not begin with a zero. -/
theorem head?_digits_ne_zero {number : Nat} (hpositive : 0 < number) :
    (digits number).head? ≠ some '0' := by
  have hdigit : ∀ digit < 10, 0 < digit → Nat.digitChar digit ≠ '0' := by decide
  induction number using Nat.strongRecOn with
  | ind number ih =>
      unfold digits
      by_cases hsmall : number < 10
      · rw [Nat.toDigits_of_lt_base hsmall, List.head?_cons, ne_eq, Option.some.injEq]
        exact hdigit number hsmall hpositive
      · rw [Nat.toDigits_of_base_le (by decide) (Nat.not_lt.mp hsmall),
          List.head?_append_of_ne_nil _ Nat.toDigits_ne_nil]
        exact ih (number / 10) (by omega) (by omega)

end Decimal

namespace Config

/-- The rest of a document goes on with something other than a digit. -/
def EndsNumber (rest : List Char) : Prop :=
  ∀ c ∈ rest.head?, Decimal.digit? c = none

/-- **A number of 64 bits reads back from its digits.** -/
theorem readNumber_digits (number : UInt64) {rest : List Char} (hrest : EndsNumber rest) :
    readNumber (Decimal.digits number.toNat ++ rest) = some (number, rest) := by
  have hdigits : ∀ c ∈ Decimal.digits number.toNat, (Decimal.digit? c).isSome = true := by
    intro c hmem
    rw [Decimal.digit?_of_isDigit (Decimal.isDigit_of_mem_digits hmem)]
    rfl
  have htake : rest.takeWhile (fun c => (Decimal.digit? c).isSome) = [] := by
    cases rest with
    | nil => rfl
    | cons c rest =>
        rw [List.takeWhile_cons_of_neg (by rw [hrest c rfl]; exact Bool.false_ne_true)]
  have hdrop : rest.dropWhile (fun c => (Decimal.digit? c).isSome) = rest := by
    cases rest with
    | nil => rfl
    | cons c rest =>
        rw [List.dropWhile_cons_of_neg (by rw [hrest c rfl]; exact Bool.false_ne_true)]
  have hcanonical : ¬(1 < (Decimal.digits number.toNat).length ∧
      (Decimal.digits number.toNat).head? = some '0') := by
    rintro ⟨hlong, hzero⟩
    rcases Nat.eq_zero_or_pos number.toNat with hnone | hpositive
    · rw [hnone] at hlong
      exact absurd hlong (by decide)
    · exact Decimal.head?_digits_ne_zero hpositive hzero
  unfold readNumber
  dsimp only
  rw [List.takeWhile_append_of_pos hdigits, List.dropWhile_append_of_pos hdigits, htake, hdrop,
    List.append_nil, if_neg hcanonical,
    Decimal.parse_digits (Nat.le_sub_one_of_lt number.toNat_lt_size)]
  dsimp only
  rw [UInt64.ofNat_toNat]

/-! ## Values -/

/-- White space is skipped; a document without any at its front stays as it is. -/
theorem skipBlank_of_head {input : List Char}
    (hhead : ∀ c ∈ input.head?, ¬(c = ' ' ∨ c = '\n' ∨ c = '\t' ∨ c = '\r')) :
    skipBlank input = input := by
  cases input with
  | nil => rfl
  | cons c rest =>
      have hc := hhead c rfl
      exact List.dropWhile_cons_of_neg (by simpa [or_assoc] using hc)

/-- What is read after a literal depends on what follows it. -/
theorem readStrings_of_read {input text rest : List Char}
    (hread : JsonString.read input = some (text, rest)) :
    readStrings input = match skipBlank rest with
      | ']' :: rest => some ([String.ofList text], rest)
      | ',' :: tail => (readStrings (skipBlank tail)).map
          fun (texts, rest) => (String.ofList text :: texts, rest)
      | _ => none := by
  rw [readStrings]
  split
  · rename_i hnone
    rw [hread] at hnone
    cases hnone
  · rename_i hsome
    obtain ⟨rfl, rfl⟩ := Prod.mk.inj (Option.some.inj (hread.symm.trans hsome))
    split <;> simp_all

/-- Several texts are the first one, a comma and the others. -/
theorem commaSeparated_cons {text : List Char} {texts : List (List Char)} (hmore : texts ≠ []) :
    commaSeparated (text :: texts) = text ++ ',' :: commaSeparated texts := by
  cases texts with
  | nil => exact absurd rfl hmore
  | cons next texts => rfl

/-- Texts with commas between them begin like the first of them. -/
theorem head?_commaSeparated (c : Char) (text : List Char) (texts : List (List Char))
    (rest : List Char) : (commaSeparated ((c :: text) :: texts) ++ rest).head? = some c := by
  cases texts <;> rfl

/-- Literals with commas between them begin with a quote. -/
theorem head?_literals (text : String) (texts : List String) (rest : List Char) :
    (commaSeparated ((text :: texts).map fun entry => JsonString.encode entry.toList)
      ++ rest).head? = some '"' :=
  head?_commaSeparated '"' _ _ _

/-- A text that begins with a quote is not skipped. -/
theorem skipBlank_of_quote {input : List Char} (hquote : input.head? = some '"') :
    skipBlank input = input :=
  skipBlank_of_head (by rw [hquote]; simp)

/-- String literals read back one after the other. -/
theorem readStrings_commaSeparated (text : String) (texts : List String) (rest : List Char) :
    readStrings (commaSeparated ((text :: texts).map fun entry => JsonString.encode entry.toList)
        ++ ']' :: rest)
      = some (text :: texts, rest) := by
  induction texts generalizing text with
  | nil =>
      show readStrings (JsonString.encode text.toList ++ ']' :: rest) = some ([text], rest)
      rw [readStrings_of_read (JsonString.read_encode _ _), skipBlank_of_head (by simp),
        String.ofList_toList]
      rfl
  | cons next texts ih =>
      rw [List.map_cons, commaSeparated_cons (mt List.map_eq_nil_iff.mp (List.cons_ne_nil _ _)),
        List.append_assoc, readStrings_of_read (JsonString.read_encode _ _), String.ofList_toList,
        List.cons_append, skipBlank_of_head (by simp)]
      show (readStrings (skipBlank _)).map _ = _
      rw [skipBlank_of_quote (head?_literals next texts _), ih]
      rfl

/-- An array that begins with a literal is read literal by literal. -/
theorem readStringArray_of_quote {input : List Char} (hquote : input.head? = some '"') :
    readStringArray ('[' :: input) = readStrings input := by
  obtain ⟨rest, rfl⟩ := List.head?_eq_some_iff.mp hquote
  rfl

/-- An array of strings reads back. -/
theorem readStringArray_commaSeparated (texts : List String) (rest : List Char) :
    readStringArray ('[' :: (commaSeparated (texts.map fun entry => JsonString.encode entry.toList)
        ++ ']' :: rest))
      = some (texts, rest) := by
  cases texts with
  | nil => rfl
  | cons text texts =>
      rw [readStringArray_of_quote (head?_literals text texts _)]
      exact readStrings_commaSeparated text texts rest

/-! ## Documents -/

/-- A configuration with the value that another has in a field. -/
def adopt (base config : Config) : Field → Config
  | .servers => { base with servers := config.servers }
  | .connectTimeout => { base with connectTimeout := config.connectTimeout }
  | .reconnectTimeout => { base with reconnectTimeout := config.reconnectTimeout }
  | .deadTimeout => { base with deadTimeout := config.deadTimeout }
  | .ioTimeout => { base with ioTimeout := config.ioTimeout }
  | .buffering => { base with buffering := config.buffering }

/-- **The value of a field reads back.** -/
theorem readValue_writeValue (base config : Config) (field : Field) {rest : List Char}
    (hrest : EndsNumber rest) :
    readValue base field (config.writeValue field ++ rest)
      = some (base.adopt config field, rest) := by
  cases field with
  | servers =>
      simp only [readValue, writeValue, List.cons_append, List.append_assoc]
      show (readStringArray ('[' :: (_ ++ ']' :: rest))).map _ = _
      rw [readStringArray_commaSeparated]
      rfl
  | connectTimeout | reconnectTimeout | deadTimeout | ioTimeout =>
      simp only [readValue, writeValue, readNumber_digits _ hrest]
      rfl
  | buffering =>
      simp only [readValue, writeValue, adopt]
      cases config.buffering <;> rfl

/-- The value of a field is written without white space at its front. -/
theorem skipBlank_writeValue (config : Config) (field : Field) (rest : List Char) :
    skipBlank (config.writeValue field ++ rest) = config.writeValue field ++ rest := by
  have hdigits (number : Nat) :
      skipBlank (Decimal.digits number ++ rest) = Decimal.digits number ++ rest := by
    refine skipBlank_of_head fun c hhead => ?_
    rw [List.head?_append_of_ne_nil _ (show Decimal.digits number ≠ [] from Nat.toDigits_ne_nil)]
      at hhead
    have hdigit := Decimal.isDigit_of_mem_digits (List.mem_of_mem_head? hhead)
    rintro (rfl | rfl | rfl | rfl) <;> cases hdigit
  cases field with
  | servers => rfl
  | connectTimeout | reconnectTimeout | deadTimeout | ioTimeout => exact hdigits _
  | buffering =>
      unfold writeValue
      cases config.buffering <;> rfl

/-- The member of an object for a field. -/
def writeMember (config : Config) (field : Field) : List Char :=
  JsonString.encode field.name.toList ++ ':' :: config.writeValue field

/-- What is read behind a member: the end of the object, or more members. -/
def readFurther (missing : List Field) (config : Config) (input : List Char) :
    Option (Config × List Char) :=
  match skipBlank input with
  | '}' :: rest => some (config, rest)
  | ',' :: rest => readMembers missing config (skipBlank rest)
  | _ => none

/-- A member that stands first is read as the field it names. -/
theorem readMembers_writeMember (base config : Config) (field : Field) (fields : List Field)
    {rest : List Char} (hrest : EndsNumber rest) :
    readMembers (field :: fields) base (config.writeMember field ++ rest)
      = readFurther fields (base.adopt config field) rest := by
  have hnamed : fieldNamed (field :: fields) field.name.toList = some field := by
    unfold fieldNamed
    rw [List.find?_cons_of_pos (by simp)]
  have hcolon : skipBlank (':' :: config.writeValue field ++ rest)
      = ':' :: (config.writeValue field ++ rest) := rfl
  rw [writeMember, List.append_assoc, readMembers, JsonString.read_encode]
  dsimp only
  split
  · rename_i hnone
    rw [hnamed] at hnone
    cases hnone
  · rename_i found hfound
    obtain rfl := Option.some.inj (hnamed.symm.trans hfound)
    rw [hcolon]
    split
    · rename_i hbehind
      cases hbehind
      rw [skipBlank_writeValue, readValue_writeValue base config field hrest,
        List.erase_cons_head]
      rfl
    · rename_i hother
      exact absurd rfl (hother _)

/-- **Members read back**, each into its field. -/
theorem readMembers_commaSeparated (base config : Config) (field : Field) (fields : List Field)
    (rest : List Char) :
    readMembers (field :: fields) base
        (commaSeparated ((field :: fields).map config.writeMember) ++ '}' :: rest)
      = some ((field :: fields).foldl (·.adopt config ·) base, rest) := by
  induction fields generalizing base field with
  | nil =>
      show readMembers [field] base (config.writeMember field ++ '}' :: rest) = _
      rw [readMembers_writeMember]
      · rfl
      · rintro c ⟨⟩
        rfl
  | cons next fields ih =>
      rw [List.map_cons, commaSeparated_cons (mt List.map_eq_nil_iff.mp (List.cons_ne_nil _ _)),
        List.append_assoc, readMembers_writeMember]
      · have hquote : (commaSeparated ((next :: fields).map config.writeMember)
            ++ '}' :: rest).head? = some '"' := head?_commaSeparated '"' _ _ _
        show readMembers (next :: fields) _
          (skipBlank (commaSeparated ((next :: fields).map config.writeMember) ++ '}' :: rest)) = _
        rw [skipBlank_of_quote hquote]
        exact ih _ _
      · rintro c ⟨⟩
        rfl

/-- **A configuration reads back from its document.** -/
theorem read_write (config : Config) : read config.write = some config := by
  have hmembers := readMembers_commaSeparated default config .servers
    [.connectTimeout, .reconnectTimeout, .deadTimeout, .ioTimeout, .buffering] []
  have hrecord : readRecord config.write = some (config, []) := hmembers
  have hbrace : skipBlank config.write = config.write := rfl
  unfold read
  rw [hbrace, hrecord]
  rfl

/-! ## Checked documents -/

/-- What a document gives has passed the checks. -/
theorem ofDocument_ok_iff {document : String} {config : Config} :
    ofDocument document = .ok config ↔
      read document.toList = some config ∧ config.validate = .ok () := by
  unfold ofDocument
  cases hread : read document.toList with
  | none => exact ⟨nofun, nofun⟩
  | some found =>
      dsimp only
      rw [Option.some.injEq]
      constructor
      · intro hchecked
        split at hchecked
        · cases hchecked
        · rename_i hvalid
          cases hchecked
          exact ⟨rfl, hvalid⟩
      · rintro ⟨rfl, hvalid⟩
        rw [hvalid]

/-- Two entries of a configuration name one server. -/
def Repeats (config : Config) (address : ServerAddress) : Prop :=
  ∃ first second : Nat, first < second ∧ ∃ one two : String,
    config.servers[first]? = some one ∧ ServerAddress.parse one.toList = .ok address ∧
    config.servers[second]? = some two ∧ ServerAddress.parse two.toList = .ok address

/-- The addresses of a configuration are read from its entries, one from each. -/
theorem forall₂_of_addresses {config : Config} {addresses : List ServerAddress}
    (haddresses : config.addresses = .ok addresses) :
    List.Forall₂ (fun entry address => ServerAddress.parse (String.toList entry) = .ok address)
      config.servers addresses := by
  unfold Config.addresses ServerList.parse at haddresses
  dsimp only at haddresses
  split at haddresses
  · cases haddresses
  · rwa [ServerList.parseEntries_ok_iff, List.forall₂_map_left_iff] at haddresses

/-- A server is named by two entries just if it is twice among the addresses. -/
theorem repeats_iff {config : Config} {addresses : List ServerAddress}
    (haddresses : config.addresses = .ok addresses) {address : ServerAddress} :
    config.Repeats address ↔ List.Duplicate address addresses := by
  obtain ⟨hlength, hentries⟩ := List.forall₂_iff_get.mp (forall₂_of_addresses haddresses)
  rw [List.duplicate_iff_exists_distinct_get]
  constructor
  · rintro ⟨first, second, hbefore, one, two, hone, hfirst, htwo, hsecond⟩
    obtain ⟨hplace, rfl⟩ := List.getElem?_eq_some_iff.mp hone
    obtain ⟨hplace', rfl⟩ := List.getElem?_eq_some_iff.mp htwo
    refine ⟨⟨first, hlength ▸ hplace⟩, ⟨second, hlength ▸ hplace'⟩, hbefore, ?_, ?_⟩
    · exact Except.ok.inj (hfirst.symm.trans (hentries first hplace (hlength ▸ hplace)))
    · exact Except.ok.inj (hsecond.symm.trans (hentries second hplace' (hlength ▸ hplace')))
  · rintro ⟨⟨first, hplace⟩, ⟨second, hplace'⟩, hbefore, hfirst, hsecond⟩
    rw [← hlength] at hplace hplace'
    refine ⟨first, second, hbefore, _, _, List.getElem?_eq_getElem hplace, ?_,
      List.getElem?_eq_getElem hplace', ?_⟩
    · rw [hfirst]
      exact hentries first hplace _
    · rw [hsecond]
      exact hentries second hplace' _

/-- A configuration whose entries hold quotes, escapes and other characters, and whose timeouts
are the largest and the least numbers. -/
def marked : Config where
  servers := ["\"\\\t\x01/\u2028é😀", "::1"]
  connectTimeout := 18446744073709551615
  reconnectTimeout := 0
  deadTimeout := 9007199254740993
  ioTimeout := 1
  buffering := true

/-- A configuration that names a server in two ways. -/
def twin : Config :=
  { Config.default with servers := ["a", " [a]:11211"] }

end Config

namespace Pool

/-- The address that is reported is in the list twice. -/
theorem duplicate_of_firstDuplicate? {seen addresses : List ServerAddress}
    {address : ServerAddress} (hfirst : firstDuplicate? seen addresses = some address) :
    address ∈ seen ∧ address ∈ addresses ∨ List.Duplicate address addresses := by
  induction addresses generalizing seen with
  | nil => cases hfirst
  | cons next addresses ih =>
      unfold firstDuplicate? at hfirst
      split at hfirst
      · rename_i hseen
        cases hfirst
        exact .inl ⟨hseen, List.mem_cons_self⟩
      · rcases ih hfirst with ⟨hmem, hlater⟩ | htwice
        · rcases List.mem_cons.mp hmem with rfl | hseen
          · exact .inr (List.Mem.duplicate_cons_self hlater)
          · exact .inl ⟨hseen, List.mem_cons_of_mem _ hlater⟩
        · exact .inr (htwice.duplicate_cons _)

end Pool

namespace Client

variable {ω : Type} [Network ω]

/-- A list that names a server twice is refused for a server that it names twice. -/
theorem exists_installServers_eq_duplicate (client : Client ω) {addresses : List ServerAddress}
    (hsome : addresses ≠ []) (hrepeated : ¬addresses.Nodup) :
    ∃ address, List.Duplicate address addresses ∧
      client.installServers addresses = .error (.config (.duplicateServer address)) := by
  cases hfirst : Pool.firstDuplicate? [] addresses with
  | none => exact absurd (Pool.firstDuplicate?_nil_iff.mp hfirst) hrepeated
  | some address =>
      refine ⟨address, ?_, ?_⟩
      · rcases Pool.duplicate_of_firstDuplicate? hfirst with ⟨hnone, -⟩ | htwice
        · cases hnone
        · exact htwice
      · unfold installServers Pool.setServers
        dsimp only
        rw [if_neg hsome, hfirst]

/-- **A checked configuration opens a client, unless it names a server twice.** -/
theorem withConfig_of_validate (net : ω) {config : Config} (hvalid : config.validate = .ok ()) :
    (∀ address, ¬config.Repeats address) ∧ (∃ client, withConfig net config = .ok client) ∨
      ∃ address, config.Repeats address ∧
        withConfig net config = .error (.config (.duplicateServer address)) := by
  obtain ⟨addresses, haddresses⟩ : ∃ addresses, config.addresses = .ok addresses := by
    unfold Config.validate at hvalid
    split at hvalid
    · cases hvalid
    · split at hvalid
      · cases hvalid
      · exact ⟨_, ‹_›⟩
  have hsome : addresses ≠ [] := (ServerList.parse_ok haddresses).1
  have hinstall : withConfig net config
      = (blank config.timeouts config.buffering net).installServers addresses := by
    unfold withConfig
    rw [hvalid, haddresses]
    rfl
  rw [hinstall]
  by_cases hdistinct : addresses.Nodup
  · refine .inl ⟨fun address hrepeats => ?_, _, installServers_eq hsome hdistinct⟩
    exact List.nodup_iff_forall_not_duplicate.mp hdistinct address
      ((Config.repeats_iff haddresses).mp hrepeats)
  · obtain ⟨address, htwice, hrefused⟩ :=
      exists_installServers_eq_duplicate (blank config.timeouts config.buffering net) hsome
        hdistinct
    exact .inr ⟨address, (Config.repeats_iff haddresses).mpr htwice, hrefused⟩

/-- **Configurations survive their documents.**  A configuration that passes the checks, with
whatever characters in its entries, is what its document gives.  Whatever a document gives
passes the checks; and a client is opened with it on every network, unless two entries name one
server, which is then the reason. -/
theorem documents_read_back (net : ω) :
    (∀ config : Config, config.validate = .ok () →
      Config.ofDocument (String.ofList config.write) = .ok config) ∧
    ∀ document config, Config.ofDocument document = .ok config →
      config.validate = .ok () ∧
      ((∀ address, ¬config.Repeats address) ∧ (∃ client, withConfig net config = .ok client) ∨
        ∃ address, config.Repeats address ∧
          withConfig net config = .error (.config (.duplicateServer address))) := by
  constructor
  · intro config hvalid
    rw [Config.ofDocument_ok_iff, String.toList_ofList]
    exact ⟨config.read_write, hvalid⟩
  · intro document config hdocument
    have hvalid := (Config.ofDocument_ok_iff.mp hdocument).2
    exact ⟨hvalid, withConfig_of_validate net hvalid⟩

/-- A configuration with marks in its entries is opened; one that names a server in two ways passes
the checks, too, but is refused. -/
theorem documents_read_back_twin :
    Config.marked.validate = .ok () ∧
    Config.ofDocument (String.ofList Config.marked.write) = .ok Config.marked ∧
    (∃ client, withConfig (Script.mk 0 [] []) Config.marked = .ok client) ∧
    Config.twin.validate = .ok () ∧
    Config.ofDocument (String.ofList Config.twin.write) = .ok Config.twin ∧
    ∃ address, Config.twin.Repeats address ∧
      withConfig (Script.mk 0 [] []) Config.twin = .error (.config (.duplicateServer address)) := by
  obtain ⟨hwritten, hread⟩ := documents_read_back (Script.mk 0 [] [])
  have hmarked : Config.marked.validate = .ok () := rfl
  have htwin : Config.twin.validate = .ok () := rfl
  refine ⟨hmarked, hwritten _ hmarked, ⟨_, rfl⟩, htwin, hwritten _ htwin, ?_⟩
  obtain ⟨-, ⟨-, client, hopened⟩ | hrefused⟩ := hread _ _ (hwritten _ htwin)
  · cases hopened
  · exact hrefused

end Client

end CachePool
