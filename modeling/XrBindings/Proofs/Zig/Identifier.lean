import Mathlib.Data.List.Basic
import XrBindings.Proofs.Text.Cut
import XrBindings.Zig.Identifier

/-!
# Escaped identifiers can be read back

What stands between the quotes of an escaped identifier stands for bytes: a printable character for
itself, a quote and a backslash after a backslash, and any byte as two hexadecimal digits. Reading
the bytes of an escaped name gives the UTF-8 bytes of the name, so that no two names are written in
the same way. The bindings themselves never read bytes. They only drop backslashes, which gives the
name back where all of its characters are printable, and nowhere else: without their backslashes the
digits of bytes are still there, and they are printable.
-/

namespace XrBindings.Zig

variable {c : Char} {cs : List Char} {name : String}

/-! ## Bytes between the quotes -/

/-- The value of a hexadecimal digit, in either case. -/
def hexValue? (c : Char) : Option ℕ := (List.range 16).find? (Nat.digitChar · == c.toLower)

/-- The bytes that a text between quotes stands for. There are none if a quote comes without a
backslash, or a backslash before anything but a quote, a backslash, or `x` and two digits. -/
def quotedBytes? : List Char → Option (List UInt8)
  | [] => some []
  | '\\' :: 'x' :: high :: low :: rest => do
    let high ← hexValue? high
    let low ← hexValue? low
    let bytes ← quotedBytes? rest
    return UInt8.ofNat (16 * high + low) :: bytes
  | '\\' :: c :: rest =>
    if c == '"' || c == '\\' then (quotedBytes? rest).map (UInt8.ofNat c.toNat :: ·) else none
  | c :: rest =>
    if isPrintableAscii c && c != '"' && c != '\\' then
      (quotedBytes? rest).map (UInt8.ofNat c.toNat :: ·)
    else none

/-- The name that a text between quotes stands for: its bytes have to be UTF-8. -/
def quotedName? (cs : List Char) : Option String :=
  (quotedBytes? cs).bind fun bytes ↦ String.fromUTF8? bytes.toByteArray

theorem hexValue?_digitChar {n : ℕ} (h : n < 16) : hexValue? (Nat.digitChar n) = some n := by
  have hall : ∀ n : Fin 16, hexValue? (Nat.digitChar n) = some n.val := by decide
  exact hall ⟨n, h⟩

theorem quotedBytes?_hexByte (b : UInt8) (cs : List Char) :
    quotedBytes? ('\\' :: 'x' :: hexByte b ++ cs) = (quotedBytes? cs).map (b :: ·) := by
  have hlt : b.toNat < 256 := b.toNat_lt
  have hhigh := hexValue?_digitChar (n := b.toNat / 16) (by omega)
  have hlow := hexValue?_digitChar (n := b.toNat % 16) (by omega)
  have hvalue : UInt8.ofNat (16 * (b.toNat / 16) + b.toNat % 16) = b := by
    rw [show 16 * (b.toNat / 16) + b.toNat % 16 = b.toNat by omega, UInt8.ofNat_toNat]
  rw [hexByte, List.cons_append, List.cons_append, List.cons_append, List.cons_append,
    List.nil_append, quotedBytes?, hhigh, hlow]
  cases quotedBytes? cs with
  | none => rfl
  | some bytes => exact congrArg (fun b ↦ some (b :: bytes)) hvalue

theorem quotedBytes?_hexBytes (bytes : List UInt8) (cs : List Char) :
    quotedBytes? ((bytes.flatMap fun b ↦ '\\' :: 'x' :: hexByte b) ++ cs) =
      (quotedBytes? cs).map (bytes ++ ·) := by
  induction bytes with
  | nil => simp
  | cons b bytes ih =>
    rw [List.flatMap_cons, List.append_assoc, quotedBytes?_hexByte, ih, Option.map_map]
    rfl

theorem isPrintableAscii_iff : isPrintableAscii c = true ↔ 32 ≤ c.toNat ∧ c.toNat ≤ 126 := by
  rw [isPrintableAscii, Bool.and_eq_true, decide_eq_true_iff, decide_eq_true_iff]
  exact Iff.rfl

theorem utf8EncodeChar_of_isPrintableAscii (h : isPrintableAscii c = true) :
    String.utf8EncodeChar c = [UInt8.ofNat c.toNat] := by
  have hle : c.toNat ≤ 126 := (isPrintableAscii_iff.mp h).2
  exact if_pos (show c.toNat ≤ 127 by omega)

/-- The bytes of a character are read back from its escaped form. -/
theorem quotedBytes?_quotedChar (c : Char) (cs : List Char) :
    quotedBytes? (quotedChar c ++ cs) =
      (quotedBytes? cs).map (String.utf8EncodeChar c ++ ·) := by
  rw [quotedChar]
  split
  · next hescaped =>
    obtain rfl | rfl : c = '"' ∨ c = '\\' := by simpa using hescaped
    · rfl
    · rfl
  · next hplain =>
    obtain ⟨hquote, hbackslash⟩ : c ≠ '"' ∧ c ≠ '\\' := by simpa using hplain
    split
    · next hprintable =>
      rw [utf8EncodeChar_of_isPrintableAscii hprintable, List.singleton_append, quotedBytes?,
        if_pos (by simp [hprintable, hquote, hbackslash])]
      · rfl
      · rintro _ _ _ rfl
        exact absurd rfl hbackslash
      · rintro _ _ rfl
        exact absurd rfl hbackslash
    · exact quotedBytes?_hexBytes _ cs

theorem quotedBytes?_flatMap_quotedChar (cs : List Char) :
    quotedBytes? (cs.flatMap quotedChar) = some (cs.flatMap String.utf8EncodeChar) := by
  induction cs with
  | nil => rfl
  | cons c cs ih => rw [List.flatMap_cons, quotedBytes?_quotedChar, ih, List.flatMap_cons]; rfl

/-- **An escaped text stands for the name.** -/
theorem quotedName?_flatMap_quotedChar (cs : List Char) :
    quotedName? (cs.flatMap quotedChar) = some (String.ofList cs) := by
  have hvalid : (cs.flatMap String.utf8EncodeChar).toByteArray.IsValidUTF8 :=
    ByteArray.isValidUTF8_utf8Encode
  rw [quotedName?, quotedBytes?_flatMap_quotedChar, Option.bind_some, String.fromUTF8?,
    dif_pos hvalid]
  rfl

theorem flatMap_utf8EncodeChar_injective :
    Function.Injective (List.flatMap String.utf8EncodeChar) := by
  intro cs ds h
  refine String.ofList_injective (String.toByteArray_inj.mp ?_)
  rw [String.toByteArray_ofList, String.toByteArray_ofList, List.utf8Encode, List.utf8Encode, h]

theorem flatMap_quotedChar_injective : Function.Injective (List.flatMap quotedChar) := by
  intro cs ds h
  have hbytes := congrArg quotedBytes? h
  rw [quotedBytes?_flatMap_quotedChar, quotedBytes?_flatMap_quotedChar] at hbytes
  exact flatMap_utf8EncodeChar_injective (Option.some.inj hbytes)

/-! ## Characters between the quotes -/

theorem isPrintableAscii_of_isAlphanum (h : c.isAlphanum = true ∨ c = '_') :
    isPrintableAscii c = true := by
  rw [isPrintableAscii_iff]
  rcases h with h | rfl
  · have hcode := Text.toNat_of_isAlphanum h
    omega
  · decide

theorem isAlphanum_of_isPlainWord (h : isPlainWord cs = true) :
    ∀ c ∈ cs, c.isAlphanum = true ∨ c = '_' := by
  cases cs with
  | nil => exact List.forall_mem_nil _
  | cons first rest =>
    simp only [isPlainWord, Bool.and_eq_true, Bool.or_eq_true, beq_iff_eq, List.all_eq_true] at h
    refine List.forall_mem_cons.mpr ⟨h.1.imp_left fun halpha ↦ ?_, h.2⟩
    rw [Char.isAlphanum, halpha, Bool.true_or]

theorem isPrintableAscii_of_isPlainWord (h : isPlainWord cs = true) :
    ∀ c ∈ cs, isPrintableAscii c = true := fun c hc ↦
  isPrintableAscii_of_isAlphanum (isAlphanum_of_isPlainWord h c hc)

theorem isPrintableAscii_of_mem_hexByte {b : UInt8} (h : c ∈ hexByte b) :
    isPrintableAscii c = true := by
  have hdigit : ∀ n : Fin 16, isPrintableAscii (Nat.digitChar n) = true := by decide
  have hlt : b.toNat < 256 := b.toNat_lt
  rcases List.mem_pair.mp h with rfl | rfl
  · exact hdigit ⟨b.toNat / 16, by omega⟩
  · exact hdigit ⟨b.toNat % 16, by omega⟩

/-- Whatever a name holds, between the quotes it is printable. -/
theorem isPrintableAscii_of_mem_quotedChar {d : Char} (h : d ∈ quotedChar c) :
    isPrintableAscii d = true := by
  rw [quotedChar] at h
  split at h
  · next hescaped =>
    rcases List.mem_pair.mp h with rfl | rfl
    · decide
    · obtain rfl | rfl : d = '"' ∨ d = '\\' := by simpa using hescaped
      · decide
      · decide
  · split at h
    · next hprintable => rwa [List.mem_singleton.mp h]
    · obtain ⟨b, -, hd⟩ := List.mem_flatMap.mp h
      rcases List.mem_cons.mp hd with rfl | hd
      · decide
      · rcases List.mem_cons.mp hd with rfl | hd
        · decide
        · exact isPrintableAscii_of_mem_hexByte hd

theorem isPrintableAscii_of_mem_flatMap_quotedChar (h : c ∈ cs.flatMap quotedChar) :
    isPrintableAscii c = true := by
  obtain ⟨d, -, hc⟩ := List.mem_flatMap.mp h
  exact isPrintableAscii_of_mem_quotedChar hc

/-! ## Names -/

theorem toList_quoteIdentifier (name : String) :
    (quoteIdentifier name).toList = '@' :: '"' :: (name.toList.flatMap quotedChar ++ ['"']) := by
  rw [quoteIdentifier, String.toList_ofList, List.cons_append, List.cons_append]

theorem isValidIdentifier_iff : isValidIdentifier name = true ↔
    isPlainWord name.toList = true ∧ name ≠ "_" ∧ name ∉ keywords := by
  simp [isValidIdentifier, and_assoc]

/-- A name is written as it is only if it is valid and means nothing in the language. -/
theorem writeIdentifier_eq (name : String) :
    writeIdentifier name = name ∧ isValidIdentifier name = true ∧ isPrimitive name = false ∨
      writeIdentifier name = quoteIdentifier name := by
  rw [writeIdentifier]
  split
  · exact Or.inr rfl
  · next hplain =>
    simp only [Bool.or_eq_true, Bool.not_eq_true', not_or, Bool.not_eq_true,
      Bool.not_eq_false] at hplain
    exact Or.inl ⟨rfl, hplain.2, hplain.1⟩

theorem writeIdentifier_cases (name : String) :
    writeIdentifier name = name ∧ isPlainWord name.toList = true ∨
      writeIdentifier name = quoteIdentifier name :=
  (writeIdentifier_eq name).imp_left fun h ↦ ⟨h.1, (isValidIdentifier_iff.mp h.2.1).1⟩

theorem not_isPlainWord_quoteIdentifier (name : String) :
    isPlainWord (quoteIdentifier name).toList = false := by
  rw [toList_quoteIdentifier]
  rfl

/-- **No two names are written alike.** -/
theorem writeIdentifier_injective : Function.Injective writeIdentifier := by
  intro a b h
  rcases writeIdentifier_cases a with ⟨ha, hplain⟩ | ha <;>
    rcases writeIdentifier_cases b with ⟨hb, hplain'⟩ | hb <;>
    rw [ha, hb] at h
  · exact h
  · rw [h, not_isPlainWord_quoteIdentifier] at hplain
    exact absurd hplain Bool.false_ne_true
  · rw [← h, not_isPlainWord_quoteIdentifier] at hplain'
    exact absurd hplain' Bool.false_ne_true
  · have hbodies := congrArg String.toList h
    rw [toList_quoteIdentifier, toList_quoteIdentifier] at hbodies
    simp only [List.cons.injEq, true_and, List.append_cancel_right_eq] at hbodies
    exact String.toList_injective (flatMap_quotedChar_injective hbodies)

/-- **Escaping is safe and can be undone.** A name is either written as it is, and is then a plain
word that is neither `_` nor a keyword nor the name of a primitive type, or it is written between
`@"` and `"`. What stands there is printable, holds no quote and no backslash that would end or
spoil it, and stands for the name. So no two names are written alike. -/
theorem writeIdentifier_decodable :
    (∀ name : String,
      (writeIdentifier name = name ∧ isPlainWord name.toList = true ∧ name ≠ "_" ∧
        name ∉ keywords ∧ isPrimitive name = false) ∨
      ∃ body, writeIdentifier name = String.ofList ('@' :: '"' :: body ++ ['"']) ∧
        body.all isPrintableAscii = true ∧ quotedName? body = some name) ∧
    Function.Injective writeIdentifier := by
  refine ⟨fun name ↦ ?_, writeIdentifier_injective⟩
  rcases writeIdentifier_eq name with ⟨hname, hvalid, hprimitive⟩ | hname
  · obtain ⟨hplain, hunderscore, hkeyword⟩ := isValidIdentifier_iff.mp hvalid
    exact Or.inl ⟨hname, hplain, hunderscore, hkeyword, hprimitive⟩
  · refine Or.inr ⟨name.toList.flatMap quotedChar, hname, ?_, ?_⟩
    · exact List.all_eq_true.mpr fun c hc ↦ isPrintableAscii_of_mem_flatMap_quotedChar hc
    · rw [quotedName?_flatMap_quotedChar, String.ofList_toList]

/-- Both escapes, and bytes of a character that is not ASCII. -/
example : writeIdentifier "a\"\\é" = "@\"a\\\"\\\\\\xc3\\xa9\"" ∧
    quotedName? "a\\\"\\\\\\xc3\\xa9".toList = some "a\"\\é" := by decide +kernel

/-! ## Identifiers -/

/-- The text is one identifier: a plain word that means nothing in the language, or well-escaped
text between `@"` and `"`. -/
def IsIdentifier (text : String) : Prop :=
  isValidIdentifier text = true ∧ isPrimitive text = false ∨
    ∃ body, text = String.ofList ('@' :: '"' :: body ++ ['"']) ∧ quotedBytes? body ≠ none

theorem isIdentifier_writeIdentifier (name : String) : IsIdentifier (writeIdentifier name) := by
  rcases writeIdentifier_eq name with ⟨hname, hvalid, hprimitive⟩ | hname
  · exact Or.inl (hname.symm ▸ ⟨hvalid, hprimitive⟩)
  · exact Or.inr ⟨_, hname, by simp [quotedBytes?_flatMap_quotedChar]⟩

theorem IsIdentifier.isPlainWord_or_getLast? {text : String} (h : IsIdentifier text) :
    isPlainWord text.toList = true ∨ text.toList.getLast? = some '"' := by
  rcases h with ⟨hvalid, -⟩ | ⟨body, rfl, -⟩
  · exact Or.inl (isValidIdentifier_iff.mp hvalid).1
  · exact Or.inr (by rw [String.toList_ofList, List.getLast?_concat])

/-! ## Dropping backslashes -/

theorem unescape_quotedChar (hprintable : isPrintableAscii c = true) (cs : List Char) :
    unescape (quotedChar c ++ cs) = c :: unescape cs := by
  rw [quotedChar]
  split
  · next hescaped =>
    obtain rfl | rfl : c = '"' ∨ c = '\\' := by simpa using hescaped
    · rfl
    · rfl
  · next hplain =>
    obtain ⟨-, hbackslash⟩ : c ≠ '"' ∧ c ≠ '\\' := by simpa using hplain
    rw [List.singleton_append, unescape]
    · rintro rfl
      exact absurd rfl hbackslash
    · rintro _ _ rfl
      exact absurd rfl hbackslash

theorem unescape_flatMap_quotedChar (h : ∀ c ∈ cs, isPrintableAscii c = true) :
    unescape (cs.flatMap quotedChar) = cs := by
  induction cs with
  | nil => rfl
  | cons c cs ih =>
    rw [List.forall_mem_cons] at h
    rw [List.flatMap_cons, unescape_quotedChar h.1, ih h.2]

theorem unescape_sublist (cs : List Char) : (unescape cs).Sublist cs := by
  fun_induction unescape cs with
  | case1 => exact List.Sublist.refl []
  | case2 => exact List.Sublist.refl ['\\']
  | case3 c rest hc ih =>
    obtain rfl : c = '\n' := beq_iff_eq.mp hc
    exact (ih.cons_cons '\n').cons_cons '\\'
  | case4 c rest hc ih => exact (ih.cons_cons c).cons '\\'
  | case5 c rest _ _ ih => exact ih.cons_cons c

theorem unwrapIdentifier_quoteIdentifier (name : String) :
    unwrapIdentifier (quoteIdentifier name) =
      String.ofList (unescape (name.toList.flatMap quotedChar)) := by
  rw [unwrapIdentifier, toList_quoteIdentifier]
  split
  · next inner hinner =>
    obtain rfl : name.toList.flatMap quotedChar ++ ['"'] = inner := by simpa using hinner
    rw [if_pos (by simp), List.dropLast_concat]
  · next hother => exact absurd rfl (hother _)

/-- Only a name that begins like an escaped one is taken for one. -/
theorem unwrapIdentifier_of_head? (h : name.toList.head? ≠ some '@') :
    unwrapIdentifier name = name := by
  rw [unwrapIdentifier]
  split
  · next inner hname =>
    rw [hname] at h
    exact absurd rfl h
  · rfl

theorem unwrapIdentifier_of_isPlainWord (h : isPlainWord name.toList = true) :
    unwrapIdentifier name = name := by
  refine unwrapIdentifier_of_head? fun hhead ↦ ?_
  obtain ⟨rest, hname⟩ := List.head?_eq_some_iff.mp hhead
  rw [hname] at h
  exact absurd h (by simp [isPlainWord])

/-- Names of printable characters come back. -/
theorem unwrapIdentifier_writeIdentifier (h : ∀ c ∈ name.toList, isPrintableAscii c = true) :
    unwrapIdentifier (writeIdentifier name) = name := by
  rcases writeIdentifier_cases name with ⟨hname, hplain⟩ | hname
  · rw [hname, unwrapIdentifier_of_isPlainWord hplain]
  · rw [hname, unwrapIdentifier_quoteIdentifier, unescape_flatMap_quotedChar h,
      String.ofList_toList]

/-- **Which names come back.** Dropping the backslashes of an identifier gives the name back if and
only if all of its characters are printable ASCII. -/
theorem unwrapIdentifier_writeIdentifier_iff (name : String) :
    unwrapIdentifier (writeIdentifier name) = name ↔
      ∀ c ∈ name.toList, 0x20 ≤ c.toNat ∧ c.toNat ≤ 0x7E := by
  simp only [← isPrintableAscii_iff]
  refine ⟨fun h c hc ↦ ?_, unwrapIdentifier_writeIdentifier⟩
  rcases writeIdentifier_cases name with ⟨-, hplain⟩ | hname
  · exact isPrintableAscii_of_isPlainWord hplain c hc
  · -- Nothing but what stands between the quotes can come back.
    rw [← h, hname, unwrapIdentifier_quoteIdentifier, String.toList_ofList] at hc
    exact isPrintableAscii_of_mem_flatMap_quotedChar ((unescape_sublist _).subset hc)

end XrBindings.Zig
