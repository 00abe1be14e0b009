import Mathlib.Data.Bool.AllAny
import ImageRegistry.Proofs.Remote.Absolute
import ImageRegistry.Proofs.Remote.Deadline
import ImageRegistry.Proofs.Text.Form
import ImageRegistry.Storage.Node

/-!
# The address of a listing

A node is asked for a listing at an address that ends in the identifier, and the identifier may be
any text. What is put there is written with letters, digits, a few signs and escapes (`Escaped`),
and none of these has a meaning in an address, so the address is read as it was put together:
nothing breaks off, and the identifier is the whole query (`listUrl_eq_ok`). The escapes of an
argument read back (`percentDecode_argument`), so that two identifiers are never asked for in the
same words.
-/

namespace ImageRegistry

theorem Uri.target_of_query {u : Uri} {query : String} (h : u.query = some query) :
    u.target = u.path ++ "?" ++ query := by
  rw [target, queryText_of_some h]
  simp [String.append_assoc]

namespace Storage.Node

open ImageRegistry.Action Text

variable {n : Node} {identifier : String} {text : List Char}

/-! ### Arguments -/

/-- A text that is written with letters, digits, some signs, and escapes of two digits each. -/
inductive Escaped : List Char → Prop where
  | nil : Escaped []
  | kept (c : Char) (text : List Char) (hc : c.isAlphanum = true ∨ c ∈ "-_./".toList)
      (rest : Escaped text) : Escaped (c :: text)
  | escape (high low : Char) (text : List Char) (hhigh : high ∈ "0123456789ABCDEF".toList)
      (hlow : low ∈ "0123456789ABCDEF".toList) (rest : Escaped text) :
      Escaped ('%' :: high :: low :: text)

/-- A byte that stands for itself is a letter, a digit or one of the signs. -/
theorem of_keepsByte {b : UInt8} : keepsByte b = true → b < 0x80 ∧
    ((Char.ofNat b.toNat).isAlphanum = true ∨ Char.ofNat b.toNat ∈ "-_./".toList) :=
  forall_byte_of_nat (P := fun b ↦ keepsByte b = true → b < 0x80 ∧
    ((Char.ofNat b.toNat).isAlphanum = true ∨ Char.ofNat b.toNat ∈ "-_./".toList))
    (by decide +kernel) b b.toNat_lt

theorem isFormClass_keepsByte : IsFormClass keepsByte where
  ascii _ h := (of_keepsByte h).1
  escape := by decide
  plus := by decide
  ampersand := by decide

theorem mem_hexDigits {v : UInt8} (h : v < 16) :
    Char.ofNat (capitalHexDigit v).toNat ∈ "0123456789ABCDEF".toList :=
  forall_digit (P := fun v ↦ Char.ofNat (capitalHexDigit v).toNat ∈ "0123456789ABCDEF".toList)
    (by decide) v h

theorem escaped_ofAscii_percentEncode (bytes : List UInt8) :
    Escaped (ofAscii (percentEncode keepsByte bytes)) := by
  induction bytes with
  | nil => exact .nil
  | cons b rest ih =>
    rw [percentEncode]
    split
    · next h => exact .kept _ _ (of_keepsByte h).2 ih
    · exact .escape _ _ _ (mem_hexDigits (div_sixteen_lt b)) (mem_hexDigits (mod_sixteen_lt b)) ih

theorem escaped_argument (identifier : String) : Escaped (argument identifier) :=
  escaped_ofAscii_percentEncode _

/-- The escapes of an argument stand for the identifier that it was made of. -/
theorem percentDecode_argument (identifier : String) :
    percentDecode (byteList (String.ofList (argument identifier)).toUTF8) =
      byteList identifier.toUTF8 := by
  have hascii : ∀ b ∈ percentEncode keepsByte (byteList identifier.toUTF8), b < 0x80 :=
    fun b hb ↦ (isFormClass_keepsByte.mem_percentEncode hb).1
  rw [argument, ← ofAscii, byteList_ofAscii hascii,
    percentDecode_percentEncode isFormClass_keepsByte.escape]

/-! ### Addresses -/

theorem codes_of_isAlphanum {c : Char} (h : c.isAlphanum = true) :
    (65 ≤ c.toNat ∧ c.toNat ≤ 90 ∨ 97 ≤ c.toNat ∧ c.toNat ≤ 122) ∨
      48 ≤ c.toNat ∧ c.toNat ≤ 57 := by
  refine (Bool.or_eq_true_iff.1 h).imp (fun hletter ↦ ?_) fun hdigit ↦ ?_
  · exact (Bool.or_eq_true_iff.1 hletter).imp of_decide_eq_true
      fun hlower ↦ (Bool.and_eq_true_iff.1 hlower).imp of_decide_eq_true of_decide_eq_true
  · exact (Bool.and_eq_true_iff.1 hdigit).imp of_decide_eq_true of_decide_eq_true

theorem isQueryChar_of_isAlphanum {c : Char} (h : c.isAlphanum = true) :
    Uri.isQueryChar c = true ∧ c ≠ '#' := by
  have hcodes := codes_of_isAlphanum h
  have hne {d : Char} (hd : d.isAlphanum = false) : c ≠ d := by
    rintro rfl
    rw [h] at hd
    cases hd
  simp only [Uri.isQueryChar, Bool.and_eq_true, decide_eq_true_eq]
  exact ⟨⟨⟨⟨⟨by omega, by omega⟩, hne (by decide)⟩, hne (by decide)⟩, hne (by decide)⟩,
    hne (by decide)⟩

/-- Nothing that an argument is written with ends a query or may not stand in it. -/
theorem Escaped.isQueryChar (h : Escaped text) :
    ∀ c ∈ text, Uri.isQueryChar c = true ∧ c ≠ '#' := by
  have hsign : ∀ c ∈ "-_./".toList, Uri.isQueryChar c = true ∧ c ≠ '#' :=
    List.all_iff_forall_prop.1 (by decide)
  have hdigit : ∀ c ∈ "0123456789ABCDEF".toList, Uri.isQueryChar c = true ∧ c ≠ '#' :=
    List.all_iff_forall_prop.1 (by decide)
  induction h with
  | nil => simp
  | kept c text hc _ ih =>
    refine List.forall_mem_cons.2 ⟨?_, ih⟩
    rcases hc with hc | hc
    · exact isQueryChar_of_isAlphanum hc
    · exact hsign c hc
  | escape high low text hhigh hlow _ ih =>
    exact List.forall_mem_cons.2 ⟨by decide, List.forall_mem_cons.2 ⟨hdigit high hhigh,
      List.forall_mem_cons.2 ⟨hdigit low hlow, ih⟩⟩⟩

/-- The path of the interface without the slashes at its end, and the name of what is asked for. -/
theorem isPath_listing {path : List Char} (h : Uri.IsPath path) :
    Uri.IsPath (dropTrailing (· = '/') path ++ "/api/v0/ls".toList) := by
  have hname : ∀ c ∈ "/api/v0/ls".toList, Uri.isPathChar c = true ∧ c ≠ '?' ∧ c ≠ '#' :=
    List.all_iff_forall_prop.1 (by decide)
  obtain ⟨trail, htrail, -⟩ := exists_eq_dropTrailing (fun c : Char ↦ decide (c = '/')) path
  generalize dropTrailing (fun c : Char ↦ decide (c = '/')) path = front at htrail ⊢
  subst htrail
  refine ⟨fun c hc ↦ ?_, fun c hc ↦ ?_⟩
  · cases front with
    | nil =>
      obtain rfl : '/' = c := Option.some.inj hc
      rfl
    | cons first rest => exact h.rooted c hc
  · rcases List.mem_append.1 hc with hc | hc
    · exact h.plain c (List.mem_append_left _ hc)
    · exact hname c hc

/-- A listing is asked for in the place of the interface and under its path, and the query is the
argument alone. -/
theorem listUrl_eq_ok {base : String} (hbase : Uri.parse? base = some n.api)
    (hscheme : n.api.scheme.isSome) (hquery : n.api.query = none)
    (hlength : (n.address identifier).utf8ByteSize ≤ Uri.maxLength) :
    n.listUrl identifier = .ok ⟨n.api.scheme, n.api.authority,
      String.ofList (dropTrailing (· = '/') n.api.path.toList) ++ "/api/v0/ls",
      some ("arg=" ++ String.ofList (argument identifier))⟩ := by
  obtain ⟨scheme, authority, hplace, hpath, hu, ha⟩ := Uri.exists_isPlace hbase hscheme
  have hname : ∀ c ∈ "arg=".toList, Uri.isQueryChar c = true ∧ c ≠ '#' :=
    List.all_iff_forall_prop.1 (by decide)
  have harg : ∀ c ∈ "arg=".toList ++ argument identifier, Uri.isQueryChar c = true ∧ c ≠ '#' :=
    List.forall_mem_append.2 ⟨hname, (escaped_argument identifier).isQueryChar⟩
  have haddress : n.address identifier = String.ofList (scheme ++ "://".toList ++ authority ++
      (dropTrailing (· = '/') n.api.path.toList ++ "/api/v0/ls".toList) ++
        '?' :: ("arg=".toList ++ argument identifier)) := by
    rw [address, Uri.dropTrailing_render hplace hu ha hquery]
    simp
  rw [haddress] at hlength
  have hparse := Uri.parse?_of_isPlace hplace (isPath_listing hpath) (by simp) harg hlength
  rw [listUrl, haddress, hparse, hu, ha, String.ofList_append, String.ofList_append,
    String.ofList_toList, String.ofList_toList]

/-- A listing is asked for in one request, whatever becomes of it. -/
theorem log_list_of_url {uri : Uri} (hurl : n.listUrl identifier = .ok uri) :
    ((list identifier).run n).2.service.log = n.service.log ++ [⟨.post, uri.target⟩] := by
  rw [run_list_of_url hurl]
  rcases n.service.respond ⟨.post, uri.target⟩ with
    ⟨head, body | ⟨body, reason⟩ | body⟩ | fault | _
  · exact keeps_ofExcept (fun n : Node ↦ n.service.log) id _ _
  all_goals rfl

/-- An address that was put together was short enough. -/
theorem length_of_listUrl {uri : Uri} (hurl : n.listUrl identifier = .ok uri) :
    (n.address identifier).utf8ByteSize ≤ Uri.maxLength := by
  by_contra hlong
  rw [listUrl, Uri.parse?, if_pos (Nat.lt_of_not_le hlong)] at hurl
  cases hurl

theorem argument_injective : Function.Injective argument := by
  intro identifier other h
  have hbytes : byteList identifier.toUTF8 = byteList other.toUTF8 := by
    rw [← percentDecode_argument, h, percentDecode_argument]
  rw [← String.toList_inj, ← decodeLossy_byteList_toUTF8, hbytes, decodeLossy_byteList_toUTF8]

/-- The address of a listing names the identifier, and nothing else: where the interface has a
scheme and no query, and the address is not too long, it is a `Uri` in the place of the interface,
its query is an argument that reads back as the identifier, and no other identifier is asked for in
the same words. -/
theorem listUrl_names_identifier {base : String} (hbase : Uri.parse? base = some n.api)
    (hscheme : n.api.scheme.isSome) (hquery : n.api.query = none)
    (hlength : (n.address identifier).utf8ByteSize ≤ Uri.maxLength) :
    ∃ uri text, n.listUrl identifier = .ok uri ∧
      uri.scheme = n.api.scheme ∧ uri.authority = n.api.authority ∧
      uri.path = String.ofList (dropTrailing (· = '/') n.api.path.toList) ++ "/api/v0/ls" ∧
      uri.query = some ("arg=" ++ text) ∧ Escaped text.toList ∧
      percentDecode (byteList text.toUTF8) = byteList identifier.toUTF8 ∧
      ((list identifier).run n).2.service.log = n.service.log ++ [⟨.post, uri.target⟩] ∧
      ∀ other uri', n.listUrl other = .ok uri' → uri'.target = uri.target → other = identifier := by
  have hurl := listUrl_eq_ok hbase hscheme hquery hlength
  refine ⟨_, String.ofList (argument identifier), hurl, rfl, rfl, rfl, rfl, ?_,
    percentDecode_argument identifier, log_list_of_url hurl, fun other uri' hother htarget ↦ ?_⟩
  · rw [String.toList_ofList]
    exact escaped_argument identifier
  · have hsame := listUrl_eq_ok hbase hscheme hquery (length_of_listUrl hother)
    rw [hother] at hsame
    cases hsame
    rw [Uri.target_of_query rfl, Uri.target_of_query rfl] at htarget
    rw [String.append_right_inj, String.append_right_inj, String.ofList_inj] at htarget
    exact argument_injective htarget

/-- A listing of an identifier with signs that have a meaning in an address, at an interface whose
path ends in slashes. -/
theorem listUrl_names_identifier_signs :
    let n : Node := ⟨⟨some "http", some "node.test:5001", "/a//", none⟩, 0, ⟨fun _ ↦ .stalled, []⟩⟩
    let identifier := "/x %?#&+é"
    let uri : Uri := ⟨some "http", some "node.test:5001", "/a/api/v0/ls",
      some "arg=/x%20%25%3F%23%26%2B%C3%A9"⟩
    Uri.parse? "HTTP://node.test:5001/a//#top" = some n.api ∧
      n.listUrl identifier = .ok uri ∧
      ((list identifier).run n).2.service.log = [⟨.post, uri.target⟩] ∧
      ∀ other uri', n.listUrl other = .ok uri' → uri'.target = uri.target → other = identifier := by
  intro n identifier uri
  have hbase : Uri.parse? "HTTP://node.test:5001/a//#top" = some n.api := by decide +kernel
  have hurl : n.listUrl identifier = .ok uri := by decide +kernel
  obtain ⟨found, _, hfound, -, -, -, -, -, -, hlog, hother⟩ :=
    @listUrl_names_identifier n identifier _ hbase (by decide) (by decide) (by decide +kernel)
  obtain rfl : found = uri := Except.ok.inj (hfound.symm.trans hurl)
  exact ⟨hbase, hurl, hlog, hother⟩

end Storage.Node

end ImageRegistry
