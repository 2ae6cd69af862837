/-
# Labels of points

A point of the ring is the hash of a label: the text of an address, a dash and a number.  A
host may be any text, and the dashes, colons, brackets and digits in a label may all be its
own.  Read from its end a label can be taken apart all the same.  The number and the port have
digits only, so that the last dash and the last colon are the ones that were put there; and
what stands before them is the host, in brackets just if it holds a colon.

Labels differ when their addresses or their numbers do.  So two servers of a pool have a point
in common only where the hash takes two different labels to one word.

* `ServerAddress.characters_inj` : the text of an address tells the address;
* `Ring.label_inj` : a label tells the address and the number;
* `Ring.Collides` : a hash that two labels have;
* `Client.labels_unambiguous` : what this means for the points of a client.
-/
import CachePool.Proofs.Addresses
import CachePool.Proofs.Owners
import CachePool.Proofs.Ties

namespace CachePool

/-! ## Numbers behind a separator -/

namespace Decimal

/-- The digits of a number tell the number. -/
theorem digits_inj {number other : Nat} : digits number = digits other ↔ number = other := by
  constructor
  · intro hdigits
    have hread := congrArg (Nat.ofDigitChars 10 · 0) hdigits
    rwa [digits, digits, Nat.ofDigitChars_ten_toDigits, Nat.ofDigitChars_ten_toDigits] at hread
  · exact congrArg digits

/-- The digits at the end of a text are those of the number behind the last separator. -/
theorem rtakeWhile_digits {separator : Char} (hseparator : separator.isDigit = false)
    (front : List Char) (number : Nat) :
    (front ++ separator :: digits number).rtakeWhile Char.isDigit = digits number := by
  have hdigits : ∀ c ∈ (digits number).reverse, c.isDigit = true :=
    fun c hmem => isDigit_of_mem_digits (List.mem_reverse.mp hmem)
  have hstops : ¬separator.isDigit = true := Bool.eq_false_iff.mp hseparator
  rw [List.rtakeWhile, List.reverse_append, List.reverse_cons, List.append_assoc,
    List.takeWhile_append_of_pos hdigits, List.singleton_append,
    List.takeWhile_cons_of_neg hstops, List.append_nil, List.reverse_reverse]

/-- A text that ends in a separator and a number tells what stands before and the number,
whatever that is. -/
theorem append_digits_inj {separator : Char} (hseparator : separator.isDigit = false)
    {front back : List Char} {number other : Nat} :
    front ++ separator :: digits number = back ++ separator :: digits other ↔
      front = back ∧ number = other := by
  constructor
  · intro htext
    have hdigits := congrArg (List.rtakeWhile Char.isDigit) htext
    rw [rtakeWhile_digits hseparator, rtakeWhile_digits hseparator] at hdigits
    rw [hdigits] at htext
    exact ⟨List.append_cancel_right htext, digits_inj.mp hdigits⟩
  · rintro ⟨rfl, rfl⟩
    rfl

end Decimal

/-! ## Texts of addresses -/

namespace ServerAddress

variable {address other : ServerAddress} {host another : List Char}

/-- A host as it stands in the text of an address. -/
def hostText (host : List Char) : List Char :=
  if ':' ∈ host then '[' :: (host ++ [']']) else host

/-- The text of an address has the host in front of a colon and the port. -/
theorem characters_eq (address : ServerAddress) : address.characters
    = hostText address.host.toList ++ ':' :: Decimal.digits address.port.toNat := by
  unfold characters hostText
  dsimp only
  split
  · rw [List.cons_append, List.append_assoc, List.singleton_append]
  · rfl

/-- The brackets bring no colon. -/
theorem colon_mem_hostText : ':' ∈ hostText host ↔ ':' ∈ host := by
  unfold hostText
  split
  · rename_i hcolon
    exact iff_of_true (List.mem_cons_of_mem _ (List.mem_append_left _ hcolon)) hcolon
  · rfl

/-- A host is told from its text: a colon in it says that there are brackets around. -/
theorem hostText_inj : hostText host = hostText another ↔ host = another := by
  constructor
  · intro htext
    have hcolons : ':' ∈ host ↔ ':' ∈ another := by
      rw [← colon_mem_hostText, htext, colon_mem_hostText]
    unfold hostText at htext
    by_cases hcolon : ':' ∈ host
    · rw [if_pos hcolon, if_pos (hcolons.mp hcolon)] at htext
      exact List.append_cancel_right (List.cons.inj htext).2
    · rwa [if_neg hcolon, if_neg fun hother => hcolon (hcolons.mpr hother)] at htext
  · exact congrArg hostText

/-- **The text of an address tells the address.** -/
theorem characters_inj : address.characters = other.characters ↔ address = other := by
  constructor
  · intro htext
    rw [characters_eq, characters_eq, Decimal.append_digits_inj (by decide)] at htext
    obtain ⟨hhost, hport⟩ := htext
    cases address
    cases other
    rw [mk.injEq]
    exact ⟨String.toList_injective (hostText_inj.mp hhost), UInt16.toNat_inj.mp hport⟩
  · exact congrArg characters

end ServerAddress

/-! ## Octets of texts -/

/-- The octets of a text tell the text. -/
theorem Bytes.ofString_inj {text other : String} :
    Bytes.ofString text = Bytes.ofString other ↔ text = other := by
  constructor
  · intro hoctets
    have hencoded : text.toList.utf8Encode = other.toList.utf8Encode :=
      congrArg List.toByteArray hoctets
    rw [String.utf8Encode_toList, String.utf8Encode_toList] at hencoded
    exact String.toByteArray_inj.mp hencoded
  · exact congrArg Bytes.ofString

/-! ## Labels -/

namespace Ring

variable {address other : ServerAddress} {number counter : Nat}

/-- **A label tells the address and the number.** -/
theorem label_inj : label address number = label other counter ↔
    address = other ∧ number = counter := by
  rw [label, label, Decimal.append_digits_inj (by decide), ServerAddress.characters_inj]

/-- The octets of a label, of which the hash is a point. -/
def labelOctets (address : ServerAddress) (number : Nat) : Bytes :=
  .ofString (String.ofList (label address number))

/-- They tell the address and the number, too. -/
theorem labelOctets_inj : labelOctets address number = labelOctets other counter ↔
    address = other ∧ number = counter := by
  rw [labelOctets, labelOctets, Bytes.ofString_inj, String.ofList_inj, label_inj]

/-- Two servers have different labels with one hash, each that of a point. -/
def Collides (hash : UInt32) (address other : ServerAddress) : Prop :=
  ∃ number < pointsPerServer, ∃ counter < pointsPerServer,
    labelOctets address number ≠ labelOctets other counter ∧
    hashKey (labelOctets address number) = hash ∧ hashKey (labelOctets other counter) = hash

/-- A point that two servers have in common is a collision. -/
theorem collides_of_shared {servers : List ServerAddress} (hdistinct : servers.Nodup)
    {first second : Point} (hfirst : first ∈ (build servers).points)
    (hsecond : second ∈ (build servers).points) (hshared : first.1 = second.1)
    (hother : first.2 ≠ second.2) :
    ∃ one two, servers[first.2]? = some one ∧ servers[second.2]? = some two ∧ one ≠ two ∧
      Collides first.1 one two := by
  obtain ⟨one, number, hone, hnumber, hhash⟩ := mem_points_build.mp hfirst
  obtain ⟨two, counter, htwo, hcounter, hhash'⟩ := mem_points_build.mp hsecond
  have hdiffer : one ≠ two := by
    rintro rfl
    have hindex := (List.getElem?_eq_some_iff.mp hone).1
    exact hother ((List.getElem?_inj hindex hdistinct).mp (hone.trans htwo.symm))
  refine ⟨one, two, hone, htwo, hdiffer, number, hnumber, counter, hcounter, ?_, hhash.symm,
    hhash'.symm.trans hshared.symm⟩
  exact fun hsame => hdiffer (labelOctets_inj.mp hsame).1

end Ring

/-! ## Clients -/

namespace Client

variable {ω : Type} [Network ω]

/-- The servers of a client are listed once each. -/
theorem Reaches.distinct {net : ω} {config : Config} {start client : Client ω} {trace : Trace}
    (hconfig : withConfig net config = .ok start) (hreach : start.Reaches trace client)
    {servers : List ServerAddress} (hagrees : client.pool.Agrees servers) : servers.Nodup := by
  have hapart : (client.pool.links.map (·.server.address)).Nodup :=
    (reaches_withConfig hconfig hreach).conserves.1
  have haddresses := congrArg (List.map Server.address) hagrees.lists
  rw [List.map_map, List.map_map] at haddresses
  rw [← List.zipIdx_map_fst 0 servers]
  exact haddresses ▸ hapart

/-- **Labels are unambiguous.**  Whatever the hosts and the ports, two labels are the same
text, and have the same octets, just if they are the label of one address with one number.  So
when two servers of a client have points with one hash, whatever the client has been through,
their addresses differ, and this is the hash of two different labels, one of each server. -/
theorem labels_unambiguous :
    (∀ (address other : ServerAddress) (number counter : Nat),
      (Ring.label address number = Ring.label other counter ↔
        address = other ∧ number = counter) ∧
      (Ring.labelOctets address number = Ring.labelOctets other counter ↔
        address = other ∧ number = counter)) ∧
    ∀ (net : ω) (config : Config) (start client : Client ω) (trace : Trace),
      withConfig net config = .ok start → start.Reaches trace client →
      ∀ first ∈ client.pool.ring.points, ∀ second ∈ client.pool.ring.points,
        first.1 = second.1 → first.2 ≠ second.2 →
        ∃ one two, client.servers[first.2]? = some one ∧ client.servers[second.2]? = some two ∧
          one.address ≠ two.address ∧ Ring.Collides first.1 one.address two.address := by
  refine ⟨fun _ _ _ _ => ⟨Ring.label_inj, Ring.labelOctets_inj⟩, ?_⟩
  intro net config start client trace hconfig hreach first hfirst second hsecond hshared hother
  obtain ⟨servers, hagrees⟩ := hreach.agrees hconfig
  rw [hagrees.ring] at hfirst hsecond
  obtain ⟨one, two, hone, htwo, hdiffer, hcollides⟩ :=
    Ring.collides_of_shared (hreach.distinct hconfig hagrees) hfirst hsecond hshared hother
  have hserver {index : Nat} {address : ServerAddress} (haddress : servers[index]? = some address) :
      client.servers[index]? = some ⟨index, address⟩ := by
    show (client.pool.links.map (·.server))[index]? = some ⟨index, address⟩
    rw [hagrees.lists, List.getElem?_map, List.getElem?_zipIdx, haddress]
    simp
  exact ⟨_, _, hserver hone, hserver htwo, hdiffer, hcollides⟩

/-- Two servers whose labels "a:854-16" and "a:1042-10" have one hash. -/
theorem labels_unambiguous_tied : ∃ trace client,
    (Script.mk 0 [] []).opened.Reaches trace client ∧
    (hashKey Script.tieKey, 0) ∈ client.pool.ring.points ∧
    (hashKey Script.tieKey, 1) ∈ client.pool.ring.points ∧
    ∃ one two, client.servers[0]? = some one ∧ client.servers[1]? = some two ∧
      one.address ≠ two.address ∧
      Ring.Collides (hashKey Script.tieKey) one.address two.address := by
  obtain ⟨trace, -, hlisted⟩ := reaches_perform (@Reaches.start _ _ (Script.mk 0 [] []).opened)
    (.setServers (.entries ["a:854", "a:1042"]))
  have hring : ((Script.mk 0 [] []).opened.perform
      (.setServers (.entries ["a:854", "a:1042"]))).2.pool.ring = .build Script.tied := rfl
  have hpoint (index : Nat) (hindex : index < Script.tied.length) :
      (hashKey Script.tieKey, index) ∈ (Ring.build Script.tied).points :=
    Ring.mem_points_build_iff_hashes.mpr ⟨Script.tied[index], List.getElem?_eq_getElem hindex,
      Script.hashKey_tieKey_mem _ (List.getElem_mem hindex)⟩
  have hfirst := hpoint 0 (by decide)
  have hsecond := hpoint 1 (by decide)
  rw [← hring] at hfirst hsecond
  exact ⟨trace, _, hlisted, hfirst, hsecond, labels_unambiguous.2 _ _ _ _ _
    (Script.withConfig_opened _) hlisted _ hfirst _ hsecond rfl Nat.zero_ne_one⟩

end Client

end CachePool
