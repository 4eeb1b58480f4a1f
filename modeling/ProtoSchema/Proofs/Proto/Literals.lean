import ProtoSchema.Json.Reader
import ProtoSchema.Proto.Printer

/-! String literals of proto3 as a reader takes them: the bytes that one stands for, and where it
ends. -/
namespace ProtoSchema.Proto

/-- The bytes of a text. -/
def utf8 (text : List Char) : List UInt8 := text.flatMap String.utf8EncodeChar

/-- The digits in this base that a text starts with, at most so many. -/
def takeDigits (base : Nat) : Nat → List Char → List Nat × List Char
  | 0, text => ([], text)
  | _ + 1, [] => ([], [])
  | most + 1, c :: rest =>
    match (Json.hexDigit? c).filter (· < base) with
    | some digit => (digit :: (takeDigits base most rest).1, (takeDigits base most rest).2)
    | none => ([], c :: rest)

/-- Reads a number of at least and at most so many digits. -/
def readNumber (base least most : Nat) (encode : Nat → Option (List UInt8)) (text : List Char) :
    Option (List UInt8 × List Char) :=
  let (digits, after) := takeDigits base most text
  if digits.length < least then none
  else (encode (digits.foldl (fun n digit => n * base + digit) 0)).map fun bytes => (bytes, after)

/-- The last eight bits of a number. -/
def byteOf (n : Nat) : Option (List UInt8) := some [UInt8.ofNat n]

/-- The bytes of the character of this number. -/
def scalarOf (n : Nat) : Option (List UInt8) :=
  if n.isValidChar then some (String.utf8EncodeChar (Char.ofNat n)) else none

/-- The byte that a backslash and this character stand for. -/
def escapedByte? : Char → Option UInt8
  | 'a' => some 0x07
  | 'b' => some 0x08
  | 'f' => some 0x0c
  | 'n' => some 0x0a
  | 'r' => some 0x0d
  | 't' => some 0x09
  | 'v' => some 0x0b
  | '\\' => some 0x5c
  | '\'' => some 0x27
  | '"' => some 0x22
  | _ => none

/-- Reads what follows a backslash: octal or hexadecimal digits of a byte or of a character, or a
character that stands for a byte. -/
def readEscape : List Char → Option (List UInt8 × List Char)
  | [] => none
  | c :: rest =>
    if c = 'x' ∨ c = 'X' then readNumber 16 1 2 byteOf rest
    else if c = 'u' then readNumber 16 4 4 scalarOf rest
    else if c = 'U' then readNumber 16 8 8 scalarOf rest
    else
      match escapedByte? c with
      | some byte => some ([byte], rest)
      | none => readNumber 8 1 3 byteOf (c :: rest)

/-- Reads a character of a literal as it is, or an escape. -/
def readUnit : List Char → Option (List UInt8 × List Char)
  | [] => none
  | c :: rest =>
    if c = '\\' then readEscape rest
    else if c = '\n' ∨ c = '\x00' then none
    else some (String.utf8EncodeChar c, rest)

/-- Reads a literal after its opening quote. -/
def readLiteral (quote : Char) : Nat → List Char → Option (List UInt8 × List Char)
  | 0, _ => none
  | fuel + 1, text =>
    if text.head? = some quote then some ([], text.tail)
    else do
      let (bytes, after) ← readUnit text
      let (more, left) ← readLiteral quote fuel after
      return (bytes ++ more, left)

/-- Reads a literal. Each character read costs at least one of the text, so its length is fuel
enough. -/
def literal? : List Char → Option (List UInt8 × List Char)
  | [] => none
  | quote :: text =>
    if quote = '"' ∨ quote = '\'' then readLiteral quote (text.length + 1) text else none

/-- A text that may stand between these quotes as it is. -/
def Clean (quote : Char) (text : List Char) : Prop :=
  ∀ c ∈ text, c ≠ quote ∧ c ∉ ['\\', '\n', '\x00']

instance (quote : Char) : DecidablePred (Clean quote) :=
  fun text => List.decidableBAll (fun c => c ≠ quote ∧ c ∉ ['\\', '\n', '\x00']) text

theorem utf8_cons (c : Char) (text : List Char) :
    utf8 (c :: text) = String.utf8EncodeChar c ++ utf8 text := List.flatMap_cons

theorem utf8_append (text more : List Char) : utf8 (text ++ more) = utf8 text ++ utf8 more :=
  List.flatMap_append

theorem utf8_injective : Function.Injective utf8 := by
  intro text other h
  have hBytes : text.utf8Encode = other.utf8Encode := congrArg List.toByteArray h
  rw [← String.toByteArray_ofList, ← String.toByteArray_ofList, String.toByteArray_inj] at hBytes
  exact String.ofList_injective hBytes

theorem length_le_utf8 (text : List Char) : text.length ≤ (utf8 text).length := by
  induction text with
  | nil => exact Nat.le_refl 0
  | cons c text ih =>
    have hChar := String.length_utf8EncodeChar c
    have hSize := c.utf8Size_pos
    rw [utf8_cons, List.length_append, List.length_cons]
    omega

theorem takeDigits_spec (base most : Nat) (text : List Char) :
    ∃ used, text = used ++ (takeDigits base most text).2 ∧
      used.length = (takeDigits base most text).1.length := by
  induction most generalizing text with
  | zero => exact ⟨[], rfl, rfl⟩
  | succ most ih =>
    cases text with
    | nil => exact ⟨[], rfl, rfl⟩
    | cons c rest =>
      unfold takeDigits
      split
      · obtain ⟨used, hText, hLength⟩ := ih rest
        have hCons : c :: rest = c :: used ++ (takeDigits base most rest).2 := by
          rw [List.cons_append, ← hText]
        exact ⟨c :: used, hCons, congrArg Nat.succ hLength⟩
      · exact ⟨[], rfl, rfl⟩

section
variable {text left : List Char} {bytes : List UInt8}

theorem readNumber_spec {base least most : Nat} {encode : Nat → Option (List UInt8)}
    (hEncode : ∀ n bytes, encode n = some bytes → bytes.length ≤ least)
    (h : readNumber base least most encode text = some (bytes, left)) :
    ∃ used, text = used ++ left ∧ bytes.length ≤ used.length := by
  obtain ⟨used, hText, hLength⟩ := takeDigits_spec base most text
  unfold readNumber at h
  dsimp only at h
  split at h
  · cases h
  · obtain ⟨found, hFound, hResult⟩ := Option.map_eq_some_iff.mp h
    cases hResult
    have hShort := hEncode _ _ hFound
    exact ⟨used, hText, by omega⟩

theorem length_of_byteOf {n : Nat} (h : byteOf n = some bytes) : bytes.length ≤ 1 := by
  cases h
  exact Nat.le_refl 1

theorem length_of_scalarOf {n : Nat} (h : scalarOf n = some bytes) : bytes.length ≤ 4 := by
  unfold scalarOf at h
  split at h
  · cases h
    rw [String.length_utf8EncodeChar]
    exact Char.utf8Size_le_four _
  · cases h

/-- An escape stands for no more bytes than it has characters after its backslash. -/
theorem readEscape_spec (h : readEscape text = some (bytes, left)) :
    ∃ used, text = used ++ left ∧ bytes.length ≤ used.length := by
  have hAfter : ∀ {c : Char} {rest : List Char},
      (∃ used, rest = used ++ left ∧ bytes.length ≤ used.length) →
      ∃ used, c :: rest = used ++ left ∧ bytes.length ≤ used.length := by
    intro c rest hRest
    obtain ⟨used, rfl, hLength⟩ := hRest
    exact ⟨c :: used, rfl, Nat.le_succ_of_le hLength⟩
  cases text with
  | nil => cases h
  | cons c rest =>
    rw [readEscape] at h
    split at h
    · exact hAfter (readNumber_spec (fun _ _ => length_of_byteOf) h)
    · split at h
      · exact hAfter (readNumber_spec (fun _ _ => length_of_scalarOf) h)
      · split at h
        · have hLength : ∀ n found, scalarOf n = some found → found.length ≤ 8 :=
            fun n found hFound => Nat.le_trans (length_of_scalarOf hFound) (by decide)
          exact hAfter (readNumber_spec hLength h)
        · split at h
          · cases h
            exact ⟨[c], rfl, Nat.le_refl 1⟩
          · exact readNumber_spec (fun _ _ => length_of_byteOf) h

/-- A unit stands for as many bytes as it takes exactly if it is a character as it is. -/
theorem readUnit_spec (h : readUnit text = some (bytes, left)) :
    (∃ c, text = c :: left ∧ c ∉ ['\\', '\n', '\x00'] ∧ bytes = String.utf8EncodeChar c) ∨
      ∃ used, text = used ++ left ∧ bytes.length < (utf8 used).length := by
  cases text with
  | nil => cases h
  | cons c rest =>
    rw [readUnit] at h
    split at h
    · obtain ⟨used, rfl, hLength⟩ := readEscape_spec h
      have hUsed := length_le_utf8 (c :: used)
      rw [List.length_cons] at hUsed
      exact .inr ⟨c :: used, rfl, by omega⟩
    · split at h
      · cases h
      · cases h
        refine .inl ⟨c, rfl, ?_, rfl⟩
        simp_all

theorem readLiteral_spec {quote : Char} {fuel : Nat}
    (h : readLiteral quote fuel text = some (bytes, left)) :
    ∃ used, text = used ++ quote :: left ∧ bytes.length ≤ (utf8 used).length ∧
      (bytes.length = (utf8 used).length → Clean quote used ∧ bytes = utf8 used) := by
  induction fuel generalizing text bytes with
  | zero => cases h
  | succ fuel ih =>
    rw [readLiteral] at h
    split at h
    · rename_i hQuote
      cases h
      obtain ⟨rest, rfl⟩ := List.head?_eq_some_iff.mp hQuote
      have hEmpty : Clean quote [] := List.forall_mem_nil _
      exact ⟨[], rfl, Nat.le_refl 0, fun _ => ⟨hEmpty, rfl⟩⟩
    · rename_i hQuote
      obtain ⟨⟨first, after⟩, hUnit, h⟩ := Option.bind_eq_some_iff.mp h
      obtain ⟨⟨more, rest⟩, hMore, h⟩ := Option.bind_eq_some_iff.mp h
      cases h
      obtain ⟨used, rfl, hLength, hClean⟩ := ih hMore
      rcases readUnit_spec hUnit with ⟨c, rfl, hPlain, rfl⟩ | ⟨unit, rfl, hShort⟩
      · have hNe : c ≠ quote := fun hEq => hQuote (congrArg some hEq)
        refine ⟨c :: used, rfl, ?_, fun hEq => ?_⟩
        · rw [utf8_cons, List.length_append, List.length_append]
          omega
        · rw [utf8_cons, List.length_append, List.length_append] at hEq
          obtain ⟨hUsed, hMoreEq⟩ := hClean (by omega)
          refine ⟨List.forall_mem_cons.mpr ⟨⟨hNe, hPlain⟩, hUsed⟩, ?_⟩
          rw [utf8_cons, hMoreEq]
      · refine ⟨unit ++ used, (List.append_assoc _ _ _).symm, ?_, fun hEq => ?_⟩
        · rw [utf8_append, List.length_append, List.length_append]
          omega
        · rw [utf8_append, List.length_append, List.length_append] at hEq
          omega

theorem readLiteral_of_clean {quote : Char} {fuel : Nat} (h : Clean quote text)
    (hFuel : text.length < fuel) :
    readLiteral quote fuel (text ++ quote :: left) = some (utf8 text, left) := by
  induction text generalizing fuel with
  | nil =>
    cases fuel with
    | zero => cases hFuel
    | succ fuel => rw [List.nil_append, readLiteral, if_pos List.head?_cons, List.tail_cons]; rfl
  | cons c text ih =>
    cases fuel with
    | zero => cases hFuel
    | succ fuel =>
      obtain ⟨⟨hNe, hPlain⟩, hRest⟩ := List.forall_mem_cons.mp h
      simp only [List.mem_cons, List.not_mem_nil, or_false, not_or] at hPlain
      have hHead : ¬ (c :: text ++ quote :: left).head? = some quote :=
        fun hEq => hNe (Option.some.inj hEq)
      have hUnit : readUnit (c :: text ++ quote :: left) =
          some (String.utf8EncodeChar c, text ++ quote :: left) := by
        rw [List.cons_append, readUnit, if_neg hPlain.1, if_neg (not_or.mpr hPlain.2)]
      rw [readLiteral, if_neg hHead, hUnit, utf8_cons]
      simp only [bind, Option.bind, ih hRest (Nat.lt_of_succ_lt_succ hFuel)]
      rfl

end

theorem toList_literal_append (s : String) (rest : List Char) :
    (literal s).toList ++ rest = '"' :: (s.toList ++ '"' :: rest) := by
  simp [literal]

/-- A text between double quotes reads as what it is exactly if it is clean. -/
theorem literal?_literal_iff (s : String) (rest : List Char) :
    literal? ((literal s).toList ++ rest) = some (utf8 s.toList, rest) ↔ Clean '"' s.toList := by
  rw [toList_literal_append, literal?, if_pos (Or.inl rfl)]
  constructor
  · intro h
    obtain ⟨used, hUsed, -, hClean⟩ := readLiteral_spec h
    have hSame : s.toList = used := List.append_cancel_right hUsed
    rw [hSame]
    exact (hClean (by rw [hSame])).1
  · intro h
    apply readLiteral_of_clean h
    rw [List.length_append]
    omega

end ProtoSchema.Proto
