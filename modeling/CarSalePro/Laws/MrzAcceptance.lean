import CarSalePro.Kyc.Mrz

namespace CarSalePro.Kyc

section Zones

/-- A field of a zone, of a fixed width. -/
structure MrzField (n : Nat) where
  chars : List Char
  width : chars.length = n
  allowed : ∀ c ∈ chars, mrzChar c

/-- What a travel document states of itself. A date may hold filler where it is not known. -/
structure TravelDocument where
  documentCode : List Char
  issuingState : List Char
  documentNumber : List Char
  birth : MrzField 6
  expiry : MrzField 6
  code_width : 1 ≤ documentCode.length ∧ documentCode.length ≤ 2
  code_letters : ∀ c ∈ documentCode, c.isUpper
  state_width : 1 ≤ issuingState.length ∧ issuingState.length ≤ 3
  state_letters : ∀ c ∈ issuingState, c.isUpper
  number_width : 5 ≤ documentNumber.length ∧ documentNumber.length ≤ 9
  number_chars : ∀ c ∈ documentNumber, c.isUpper || c.isDigit

/-- The value of a character in a check sum: the filler counts nothing. -/
def mrzValue (c : Char) : Nat :=
  if c.isDigit then c.toNat - '0'.toNat else if c.isUpper then c.toNat - 'A'.toNat + 10 else 0

/-- The weighted sum of a field, three characters at a time. -/
def checkSum : List Char → Nat
  | [] => 0
  | [a] => 7 * mrzValue a
  | [a, b] => 7 * mrzValue a + 3 * mrzValue b
  | a :: b :: c :: rest => 7 * mrzValue a + 3 * mrzValue b + mrzValue c + checkSum rest

/-- The check digit the standard asks for. -/
def checkDigit (field : List Char) : Char := Nat.digitChar (checkSum field % 10)

/-- A field padded to its width. -/
def padTo (n : Nat) (field : List Char) : List Char :=
  field ++ List.replicate (n - field.length) '<'

namespace TravelDocument

variable (d : TravelDocument)

/-- How every zone begins. -/
def heading (rest : List Char) : List Char :=
  padTo 2 d.documentCode ++ (padTo 3 d.issuingState ++ rest)

def numbered (rest : List Char) : List Char :=
  padTo 9 d.documentNumber ++ checkDigit (padTo 9 d.documentNumber) :: rest

def dated (sex rest : List Char) : List Char :=
  d.birth.chars ++ checkDigit d.birth.chars ::
    (sex ++ (d.expiry.chars ++ checkDigit d.expiry.chars :: rest))

end TravelDocument

/-- A conformant zone: the document, and the fields that no check digit covers and nobody reads. -/
inductive Zone where
  | td3 (document : TravelDocument) (passport : document.documentCode.head? = some 'P')
      (name : MrzField 39) (nationality : MrzField 3) (sex : MrzField 1) (rest : MrzField 16)
  | td2 (document : TravelDocument) (name : MrzField 31) (nationality : MrzField 3)
      (sex : MrzField 1) (rest : MrzField 8)
  | td1 (document : TravelDocument) (optional : MrzField 15) (sex : MrzField 1)
      (rest : MrzField 15) (name : MrzField 30)

namespace Zone

def document : Zone → TravelDocument
  | td3 d _ _ _ _ _ | td2 d _ _ _ _ | td1 d _ _ _ _ => d

def format : Zone → MrzFormat
  | td3 _ _ _ _ _ _ => .td3
  | td2 _ _ _ _ _ => .td2
  | td1 _ _ _ _ _ => .td1

def lines : Zone → List (List Char)
  | td3 d _ name nationality sex rest | td2 d name nationality sex rest =>
    [d.heading name.chars, d.numbered (nationality.chars ++ d.dated sex.chars rest.chars)]
  | td1 d optional sex rest name =>
    [d.heading (d.numbered optional.chars), d.dated sex.chars rest.chars, name.chars]

/-- What the zone encodes. -/
def identity (z : Zone) : MrzIdentity where
  documentCode := String.ofList z.document.documentCode
  issuingState := String.ofList z.document.issuingState
  documentNumber := String.ofList z.document.documentNumber
  format := z.format

end Zone

/-- The text holds the zone among lines shorter than 28 characters. -/
def Holds (text : String) (z : Zone) : Prop :=
  ∃ above below, splitLines text = above ++ z.lines ++ below ∧
    ∀ line ∈ above ++ below, line.length < 28

/-- The text holds the zone among lines that stay shorter than 28 characters when they are
normalised: a letter that is two or three in upper case makes a line longer. -/
def HoldsAlone (text : String) (z : Zone) : Prop :=
  ∃ above below, splitLines text = above ++ z.lines ++ below ∧
    ∀ line ∈ above ++ below, line.length < 28 ∧ (normaliseMrzLine line).length < 28

/-- Every text that holds a conformant zone is read as what the zone encodes. -/
def MrzLaw : Prop := ∀ text z, Holds text z → parseMrz text = some z.identity

end Zones

section Fields

theorem mrzChar_iff {c : Char} : mrzChar c = true ↔
    (65 ≤ c.toNat ∧ c.toNat ≤ 90) ∨ (48 ≤ c.toNat ∧ c.toNat ≤ 57) ∨ c = '<' := by
  simp [mrzChar, Char.isUpper, Char.isDigit, UInt32.le_iff_toNat_le, ← Char.toNat_val, or_assoc]

/-- Every character of a zone has the value the standard gives it. -/
theorem charValue_mrz {c : Char} (h : mrzChar c = true) : charValue c = some (mrzValue c) := by
  unfold charValue mrzValue
  split
  next hfiller =>
    subst hfiller
    rfl
  next hne =>
    split
    next => rfl
    next hdigit =>
      split
      next hupper =>
        have hrange : 65 ≤ c.toNat := by
          simp [Char.isUpper, UInt32.le_iff_toNat_le] at hupper
          exact hupper.1
        have hA : 'A'.toNat = 65 := rfl
        rw [hA]
        congr 1
        omega
      next hupper =>
        have hno : mrzChar c = false := by simp [mrzChar, hne, hdigit, hupper]
        rw [h] at hno
        cases hno

/-- The weights come round every three characters. -/
theorem checkSum_eq {field : List Char} (h : ∀ c ∈ field, mrzChar c = true) (i : Nat)
    (hi : i % 3 = 0) :
    ((field.zipIdx i).mapM fun x => (charValue x.1).map (· * mrzWeight x.2)) =
      some ((field.zipIdx i).map fun x => mrzValue x.1 * mrzWeight x.2) ∧
    ((field.zipIdx i).map fun x => mrzValue x.1 * mrzWeight x.2).sum = checkSum field := by
  constructor
  · clear hi
    induction field generalizing i with
    | nil => rfl
    | cons c field ih =>
      have hc := charValue_mrz (h c List.mem_cons_self)
      have hrest := ih (fun x hx => h x (List.mem_cons_of_mem c hx)) (i + 1)
      simp only [List.zipIdx_cons, List.mapM_cons, hc, hrest]
      rfl
  · induction field using checkSum.induct generalizing i with
    | case1 => rfl
    | case2 a =>
      simp [checkSum, mrzWeight, hi]
      omega
    | case3 a b =>
      have h1 : (i + 1) % 3 = 1 := by omega
      simp [checkSum, mrzWeight, hi, h1]
      omega
    | case4 a b c rest ih =>
      have h1 : (i + 1) % 3 = 1 := by omega
      have h2 : (i + 1 + 1) % 3 = 2 := by omega
      have hrest := ih (fun x hx => h x (by simp [hx])) (i + 3) (by omega)
      simp only [List.zipIdx_cons, List.map_cons, List.sum_cons, checkSum]
      rw [show i + 1 + 1 + 1 = i + 3 by omega, hrest]
      simp [mrzWeight, hi, h1, h2]
      omega

theorem mrzCheckDigit_eq {field : List Char} (h : ∀ c ∈ field, mrzChar c = true) :
    mrzCheckDigit field = some (checkSum field % 10) := by
  obtain ⟨hmap, hsum⟩ := checkSum_eq h 0 rfl
  unfold mrzCheckDigit
  rw [hmap]
  simp only [Option.map_some, hsum]

theorem digitChar_spec :
    ∀ n < 10, (Nat.digitChar n).isDigit ∧ (Nat.digitChar n).toNat - 48 = n := by
  decide

theorem checkDigit_mrz (field : List Char) : mrzChar (checkDigit field) = true := by
  have hdigit := (digitChar_spec _ (Nat.mod_lt (checkSum field) (by decide : 0 < 10))).1
  simp [mrzChar, checkDigit, hdigit]

/-- The check digit the standard asks for is the one that is looked for. -/
theorem digitMatches_checkDigit {field : List Char} (h : ∀ c ∈ field, mrzChar c = true) :
    digitMatches field (some (checkDigit field)) = true := by
  have hlt : checkSum field % 10 < 10 := Nat.mod_lt _ (by decide)
  obtain ⟨hdigit, hvalue⟩ := digitChar_spec _ hlt
  simp [digitMatches, checkDigit, mrzCheckDigit_eq h, hdigit, hvalue]

theorem slice_field {before field after : List Char} {start stop : Nat}
    (hbefore : before.length = start) (hfield : start + field.length = stop) :
    slice (before ++ (field ++ after)) start stop = field := by
  subst hbefore hfield
  unfold slice
  rw [← List.append_assoc, ← List.length_append, List.take_left, List.drop_left]

theorem at_field {before after : List Char} {c : Char} {i : Nat} (h : before.length = i) :
    (before ++ c :: after)[i]? = some c := by
  subst h
  simp

theorem unpad_padTo (n : Nat) (field : List Char) (h : ∀ c ∈ field, c ≠ '<') :
    unpad (padTo n field) = field := by
  have hpad (k : Nat) : (field ++ List.replicate k '<').rdropWhile (· = '<') = field := by
    induction k with
    | zero =>
      rw [List.replicate_zero, List.append_nil, List.rdropWhile_eq_self_iff]
      intro hne
      simpa using h _ (List.getLast_mem hne)
    | succ k ih =>
      rw [List.replicate_succ', ← List.append_assoc, List.rdropWhile_concat_pos _ _ _ (by simp), ih]
  have hdrop : (padTo n field).rdropWhile (· = '<') = field := hpad _
  unfold unpad
  rw [hdrop]
  simpa using h

theorem padTo_length {n : Nat} {field : List Char} (h : field.length ≤ n) :
    (padTo n field).length = n := by
  simp only [padTo, List.length_append, List.length_replicate]
  omega

theorem padTo_allowed {n : Nat} {field : List Char} (h : ∀ c ∈ field, mrzChar c = true) :
    ∀ c ∈ padTo n field, mrzChar c = true := by
  intro c hc
  rcases List.mem_append.mp hc with hc | hc
  · exact h c hc
  · rw [List.eq_of_mem_replicate hc]
    rfl

end Fields

section Reading

variable {lines above below : List (List Char)} {first second : List Char}

/-- Nothing in a zone changes when it is normalised. -/
theorem normaliseMrzLine_mrz {line : List Char} (h : ∀ c ∈ line, mrzChar c = true) :
    normaliseMrzLine line = line := by
  have hchar (c : Char) (hc : mrzChar c = true) : upperCase c = [c] ∧ fillerLike c = false := by
    have hrange : c.toNat < 0xAB := by
      rcases mrzChar_iff.mp hc with hupper | hdigit | rfl
      · omega
      · omega
      · decide
    have hlower : c.isLower = false := by
      rcases mrzChar_iff.mp hc with hupper | hdigit | rfl
      · simp [Char.isLower, UInt32.le_iff_toNat_le]
        omega
      · simp [Char.isLower, UInt32.le_iff_toNat_le]
        omega
      · rfl
    constructor
    · unfold upperCase
      rw [hlower, if_neg (by simp)]
      split <;> first | omega | rfl
    · simp [fillerLike]
      omega
  unfold normaliseMrzLine
  induction line with
  | nil => rfl
  | cons c line ih =>
    obtain ⟨hupper, hfiller⟩ := hchar c (h c List.mem_cons_self)
    have hrest := ih fun x hx => h x (List.mem_cons_of_mem c hx)
    rw [List.flatMap_cons, hupper, List.map_append, List.filter_append, hrest]
    simp [hfiller, h c List.mem_cons_self]

namespace TravelDocument

variable (d : TravelDocument)

theorem letters_mrz {c : Char} (h : c.isUpper || c.isDigit) : mrzChar c = true := by
  simp [mrzChar, h]

theorem code_mrz : ∀ c ∈ d.documentCode, mrzChar c = true := fun c hc =>
  letters_mrz (by simp [d.code_letters c hc])

theorem state_mrz : ∀ c ∈ d.issuingState, mrzChar c = true := fun c hc =>
  letters_mrz (by simp [d.state_letters c hc])

theorem number_mrz : ∀ c ∈ d.documentNumber, mrzChar c = true := fun c hc =>
  letters_mrz (d.number_chars c hc)

end TravelDocument

theorem letters_unfilled {field : List Char} (h : ∀ c ∈ field, c.isUpper || c.isDigit) :
    ∀ c ∈ field, c ≠ '<' := by
  rintro c hc rfl
  exact absurd (h _ hc) (by decide)

/-- The three fields of a document are what its zone encodes, when the state has three letters. -/
theorem build_document (d : TravelDocument) (format : MrzFormat) :
    build format (padTo 2 d.documentCode) (padTo 3 d.issuingState) (padTo 9 d.documentNumber) =
      if d.issuingState.length = 3 then
        some ⟨String.ofList d.documentCode, String.ofList d.issuingState,
          String.ofList d.documentNumber, format⟩
      else none := by
  have hcode := unpad_padTo 2 d.documentCode
    (letters_unfilled fun c hc => by simp [d.code_letters c hc])
  have hstate := unpad_padTo 3 d.issuingState
    (letters_unfilled fun c hc => by simp [d.state_letters c hc])
  have hnumber := unpad_padTo 9 d.documentNumber (letters_unfilled d.number_chars)
  have hletters : d.issuingState.all Char.isUpper := List.all_eq_true.mpr d.state_letters
  have hwidth := d.number_width.1
  have hcodeWidth := d.code_width.1
  unfold build
  simp only [hcode, hstate, hnumber, hletters, and_true]
  split
  next => rfl
  next => rw [if_neg (by omega), if_neg (by omega), if_pos (by omega)]

/-- How a zone's first line begins. -/
theorem slice_heading (d : TravelDocument) (rest : List Char) :
    slice (d.heading rest) 0 2 = padTo 2 d.documentCode ∧
      slice (d.heading rest) 2 5 = padTo 3 d.issuingState ∧
      (d.heading rest).length = 5 + rest.length := by
  have hcode := padTo_length d.code_width.2
  have hstate := padTo_length d.state_width.2
  have hnil : ([] : List Char).length = 0 := rfl
  refine ⟨slice_field hnil (by omega), slice_field hcode (by omega), ?_⟩
  simp only [TravelDocument.heading, List.length_append, hcode, hstate]
  omega

theorem numbered_length (d : TravelDocument) (rest : List Char) :
    (d.numbered rest).length = 10 + rest.length := by
  simp only [TravelDocument.numbered, List.length_append, List.length_cons,
    padTo_length d.number_width.2]
  omega

theorem dated_length (d : TravelDocument) (sex : MrzField 1) (rest : List Char) :
    (d.dated sex.chars rest).length = 15 + rest.length := by
  simp only [TravelDocument.dated, List.length_append, List.length_cons, d.birth.width,
    d.expiry.width, sex.width]
  omega

/-- The number and its check digit, wherever they stand. -/
theorem numbered_field (d : TravelDocument) (before rest : List Char) {i : Nat}
    (h : before.length = i) :
    slice (before ++ d.numbered rest) i (i + 9) = padTo 9 d.documentNumber ∧
      digitMatches (padTo 9 d.documentNumber) (before ++ d.numbered rest)[i + 9]? = true := by
  have hwidth := padTo_length d.number_width.2
  refine ⟨slice_field h (by omega), ?_⟩
  have hat :
      (before ++ d.numbered rest)[i + 9]? = some (checkDigit (padTo 9 d.documentNumber)) := by
    unfold TravelDocument.numbered
    rw [← List.append_assoc]
    exact at_field (by simp [h, hwidth])
  rw [hat]
  exact digitMatches_checkDigit (padTo_allowed d.number_mrz)

/-- The dates and their check digits, wherever they stand. -/
theorem dated_fields (d : TravelDocument) (sex : MrzField 1) (before rest : List Char) {i : Nat}
    (h : before.length = i) :
    digitMatches (slice (before ++ d.dated sex.chars rest) i (i + 6))
        (before ++ d.dated sex.chars rest)[i + 6]? = true ∧
      digitMatches (slice (before ++ d.dated sex.chars rest) (i + 8) (i + 14))
        (before ++ d.dated sex.chars rest)[i + 14]? = true := by
  have hbirth := d.birth.width
  have hexpiry := d.expiry.width
  have hsex := sex.width
  constructor
  · have hslice : slice (before ++ d.dated sex.chars rest) i (i + 6) = d.birth.chars :=
      slice_field h (by omega)
    have hat : (before ++ d.dated sex.chars rest)[i + 6]? = some (checkDigit d.birth.chars) := by
      unfold TravelDocument.dated
      rw [← List.append_assoc]
      exact at_field (by simp [h, hbirth])
    rw [hslice, hat]
    exact digitMatches_checkDigit d.birth.allowed
  · have hsplit : before ++ d.dated sex.chars rest =
        (before ++ (d.birth.chars ++ checkDigit d.birth.chars :: sex.chars)) ++
          (d.expiry.chars ++ checkDigit d.expiry.chars :: rest) := by
      simp [TravelDocument.dated]
    have hlength : (before ++ (d.birth.chars ++ checkDigit d.birth.chars :: sex.chars)).length =
        i + 8 := by
      simp [h, hbirth, hsex]
    have hat : (before ++ d.dated sex.chars rest)[i + 14]? = some (checkDigit d.expiry.chars) := by
      rw [hsplit, ← List.append_assoc]
      refine at_field ?_
      rw [List.length_append, hlength, hexpiry]
    rw [hat, hsplit, slice_field hlength (by omega)]
    exact digitMatches_checkDigit d.expiry.allowed

/-- The line with the number and the dates, in the layouts of two lines. -/
theorem secondLine_fields (d : TravelDocument) (nationality : MrzField 3) (sex : MrzField 1)
    (rest : List Char) {second : List Char}
    (h : second = d.numbered (nationality.chars ++ d.dated sex.chars rest)) :
    slice second 0 9 = padTo 9 d.documentNumber ∧
      digitMatches (padTo 9 d.documentNumber) second[9]? = true ∧
      digitMatches (slice second 13 19) second[19]? = true ∧
      digitMatches (slice second 21 27) second[27]? = true ∧ second.length = 28 + rest.length := by
  have hwidth := padTo_length d.number_width.2
  obtain ⟨hnumber, hdigit⟩ := numbered_field d []
    (nationality.chars ++ d.dated sex.chars rest) rfl
  have hsplit : second = (padTo 9 d.documentNumber ++ checkDigit (padTo 9 d.documentNumber) ::
      nationality.chars) ++ d.dated sex.chars rest := by
    simp [h, TravelDocument.numbered]
  have hlength : (padTo 9 d.documentNumber ++ checkDigit (padTo 9 d.documentNumber) ::
      nationality.chars).length = 13 := by
    simp [hwidth, nationality.width]
  obtain ⟨hbirth, hexpiry⟩ := dated_fields d sex _ rest hlength
  rw [← hsplit] at hbirth hexpiry
  have hslice : slice second 0 9 = padTo 9 d.documentNumber := by
    rw [h]
    exact hnumber
  refine ⟨hslice, ?_, hbirth, hexpiry, ?_⟩
  · rw [h]
    exact hdigit
  · rw [hsplit, List.length_append, hlength]
    rw [dated_length]
    omega

/-- A pair of lines that holds a zone reads as what the zone encodes, if at all. -/
theorem read_zone (z : Zone) {i : Nat} {rest : List (List Char)}
    (h : z.lines = first :: second :: rest)
    (hfirst : lines[i]? = some first) (hsecond : lines[i + 1]? = some second) :
    (match z.format with
      | .td3 => readTd3 lines i
      | .td2 => readTd2 lines i
      | .td1 => readTd1 lines i) =
      if z.document.issuingState.length = 3 then some z.identity else none := by
  cases z with
  | td3 d passport name nationality sex tail =>
    obtain ⟨hone, htwo, -⟩ : d.heading name.chars = first ∧
        d.numbered (nationality.chars ++ d.dated sex.chars tail.chars) = second ∧ _ = _ := by
      simpa [Zone.lines] using h
    obtain ⟨hcode, hstate, hlength⟩ := slice_heading d name.chars
    obtain ⟨hnumber, hdigit, hbirth, hexpiry, hlength'⟩ :=
      secondLine_fields d nationality sex tail.chars htwo.symm
    rw [hone] at hcode hstate hlength
    have hP : first[0]? = some 'P' := by
      rw [← hone]
      cases hc : d.documentCode with
      | nil => simp [hc] at passport
      | cons c code =>
        rw [hc] at passport
        cases passport
        simp [TravelDocument.heading, padTo, hc]
    have hlong : ¬ (first.length < 5 ∨ second.length < 44) := by
      have hname := name.width
      have htail := tail.width
      omega
    show readTd3 lines i = _
    unfold readTd3
    simp only [hfirst, hsecond, Option.bind_eq_bind, Option.bind_some, if_neg hlong, hP, ne_eq,
      not_true_eq_false, if_false, hdigit, hbirth, hexpiry, hcode, hstate, hnumber]
    exact build_document d .td3
  | td2 d name nationality sex tail =>
    obtain ⟨hone, htwo, -⟩ : d.heading name.chars = first ∧
        d.numbered (nationality.chars ++ d.dated sex.chars tail.chars) = second ∧ _ = _ := by
      simpa [Zone.lines] using h
    obtain ⟨hcode, hstate, hlength⟩ := slice_heading d name.chars
    obtain ⟨hnumber, hdigit, hbirth, hexpiry, hlength'⟩ :=
      secondLine_fields d nationality sex tail.chars htwo.symm
    rw [hone] at hcode hstate hlength
    have hlong : ¬ (first.length < 5 ∨ second.length < 36) := by
      have hname := name.width
      have htail := tail.width
      omega
    show readTd2 lines i = _
    unfold readTd2
    simp only [hfirst, hsecond, Option.bind_eq_bind, Option.bind_some, if_neg hlong,
      not_true_eq_false, if_false, hdigit, hbirth, hexpiry, hcode, hstate, hnumber]
    exact build_document d .td2
  | td1 d optional sex tail name =>
    obtain ⟨hone, htwo, -⟩ : d.heading (d.numbered optional.chars) = first ∧
        d.dated sex.chars tail.chars = second ∧ _ = _ := by
      simpa [Zone.lines] using h
    obtain ⟨hcode, hstate, hlength⟩ := slice_heading d (d.numbered optional.chars)
    have hprefix : (padTo 2 d.documentCode ++ padTo 3 d.issuingState).length = 5 := by
      rw [List.length_append, padTo_length d.code_width.2, padTo_length d.state_width.2]
    obtain ⟨hnumber, hdigit⟩ := numbered_field d _ optional.chars hprefix
    have hdates := dated_fields d sex [] tail.chars rfl
    rw [List.append_assoc] at hnumber hdigit
    rw [hone] at hcode hstate hlength
    change slice (d.heading (d.numbered optional.chars)) 5 14 = _ at hnumber
    change digitMatches _ (d.heading (d.numbered optional.chars))[14]? = _ at hdigit
    rw [hone] at hnumber hdigit
    rw [List.nil_append, htwo] at hdates
    have hbirth : digitMatches (slice second 0 6) second[6]? = true := hdates.1
    have hexpiry : digitMatches (slice second 8 14) second[14]? = true := hdates.2
    have hlong : ¬ (first.length < 15 ∨ second.length < 15) := by
      have hsecondLength : second.length = 15 + tail.chars.length := by
        rw [← htwo, dated_length]
      have hfirstLength := numbered_length d optional.chars
      have hoptional := optional.width
      omega
    show readTd1 lines i = _
    unfold readTd1
    simp only [hfirst, hsecond, Option.bind_eq_bind, Option.bind_some, if_neg hlong,
      not_true_eq_false, if_false, hdigit, hbirth, hexpiry, hcode, hstate, hnumber]
    exact build_document d .td1

theorem build_state {format : MrzFormat} {code state number : List Char} {r : MrzIdentity}
    (h : build format code state number = some r) : r.issuingState.toList.length = 3 := by
  simp only [build, Option.ite_none_left_eq_some] at h
  obtain ⟨hstate, -, -, hr⟩ := h
  cases hr
  rw [String.toList_ofList]
  exact (Classical.not_not.mp hstate).1

/-- Whatever is read has a state of three letters. -/
theorem parseMrz_state {text : String} {r : MrzIdentity} (h : parseMrz text = some r) :
    r.issuingState.toList.length = 3 := by
  unfold parseMrz at h
  rcases Option.or_eq_some_iff.mp h with h | ⟨-, h⟩
  · obtain ⟨i, -, hread⟩ := List.exists_of_findSome?_eq_some h
    simp only [readTd3, Option.bind_eq_bind, Option.bind_eq_some_iff,
      Option.ite_none_left_eq_some] at hread
    obtain ⟨_, -, _, -, -, -, -, -, -, hbuild⟩ := hread
    exact build_state hbuild
  · rcases Option.or_eq_some_iff.mp h with h | ⟨-, h⟩
    · obtain ⟨i, -, hread⟩ := List.exists_of_findSome?_eq_some h
      simp only [readTd2, Option.bind_eq_bind, Option.bind_eq_some_iff,
        Option.ite_none_left_eq_some] at hread
      obtain ⟨_, -, _, -, -, -, -, -, hbuild⟩ := hread
      exact build_state hbuild
    · obtain ⟨i, -, hread⟩ := List.exists_of_findSome?_eq_some h
      simp only [readTd1, Option.bind_eq_bind, Option.bind_eq_some_iff,
        Option.ite_none_left_eq_some] at hread
      obtain ⟨_, -, _, -, -, -, -, -, hbuild⟩ := hread
      exact build_state hbuild

/-- The lines of a zone are as wide as their layout. -/
theorem Zone.lines_width (z : Zone) : ∀ line ∈ z.lines, (∀ c ∈ line, mrzChar c = true) ∧
    line.length = match z.format with
      | .td3 => 44
      | .td2 => 36
      | .td1 => 30 := by
  have hheading (d : TravelDocument) {rest : List Char} (hrest : ∀ c ∈ rest, mrzChar c = true) :
      ∀ c ∈ d.heading rest, mrzChar c = true := by
    intro c hc
    rcases List.mem_append.mp hc with hc | hc
    · exact padTo_allowed d.code_mrz c hc
    · rcases List.mem_append.mp hc with hc | hc
      · exact padTo_allowed d.state_mrz c hc
      · exact hrest c hc
  have hnumbered (d : TravelDocument) {rest : List Char} (hrest : ∀ c ∈ rest, mrzChar c = true) :
      ∀ c ∈ d.numbered rest, mrzChar c = true := by
    intro c hc
    rcases List.mem_append.mp hc with hc | hc
    · exact padTo_allowed d.number_mrz c hc
    · rcases List.mem_cons.mp hc with rfl | hc
      · exact checkDigit_mrz _
      · exact hrest c hc
  have hdated (d : TravelDocument) (sex : MrzField 1) {rest : List Char}
      (hrest : ∀ c ∈ rest, mrzChar c = true) :
      ∀ c ∈ d.dated sex.chars rest, mrzChar c = true := by
    intro c hc
    rcases List.mem_append.mp hc with hc | hc
    · exact d.birth.allowed c hc
    · rcases List.mem_cons.mp hc with rfl | hc
      · exact checkDigit_mrz _
      · rcases List.mem_append.mp hc with hc | hc
        · exact sex.allowed c hc
        · rcases List.mem_append.mp hc with hc | hc
          · exact d.expiry.allowed c hc
          · rcases List.mem_cons.mp hc with rfl | hc
            · exact checkDigit_mrz _
            · exact hrest c hc
  have hsecond (d : TravelDocument) (nationality : MrzField 3) (sex : MrzField 1)
      {rest : List Char} (hrest : ∀ c ∈ rest, mrzChar c = true) :
      ∀ c ∈ d.numbered (nationality.chars ++ d.dated sex.chars rest), mrzChar c = true := by
    refine hnumbered d fun c hc => ?_
    rcases List.mem_append.mp hc with hc | hc
    · exact nationality.allowed c hc
    · exact hdated d sex hrest c hc
  intro line hline
  cases z with
  | td3 d passport name nationality sex rest =>
    obtain ⟨-, -, -, -, hwidth⟩ := secondLine_fields d nationality sex rest.chars rfl
    obtain ⟨-, -, hname⟩ := slice_heading d name.chars
    rcases List.mem_cons.mp hline with rfl | hline
    · exact ⟨hheading d name.allowed, by rw [hname, name.width]; rfl⟩
    · rw [List.mem_singleton.mp hline]
      exact ⟨hsecond d nationality sex rest.allowed, by rw [hwidth, rest.width]; rfl⟩
  | td2 d name nationality sex rest =>
    obtain ⟨-, -, -, -, hwidth⟩ := secondLine_fields d nationality sex rest.chars rfl
    obtain ⟨-, -, hname⟩ := slice_heading d name.chars
    rcases List.mem_cons.mp hline with rfl | hline
    · exact ⟨hheading d name.allowed, by rw [hname, name.width]; rfl⟩
    · rw [List.mem_singleton.mp hline]
      exact ⟨hsecond d nationality sex rest.allowed, by rw [hwidth, rest.width]; rfl⟩
  | td1 d optional sex rest name =>
    obtain ⟨-, -, hfirst⟩ := slice_heading d (d.numbered optional.chars)
    rcases List.mem_cons.mp hline with rfl | hline
    · refine ⟨hheading d (hnumbered d optional.allowed), ?_⟩
      rw [hfirst, numbered_length, optional.width]
      rfl
    · rcases List.mem_cons.mp hline with rfl | hline
      · refine ⟨hdated d sex rest.allowed, ?_⟩
        rw [dated_length, rest.width]
        rfl
      · rw [List.mem_singleton.mp hline]
        exact ⟨name.allowed, name.width⟩

end Reading

section Acceptance

variable {text : String} {z : Zone}

/-- The lines of a zone come through the normalisation as they are. -/
theorem zoneLines_zone {above below : List (List Char)}
    (h : splitLines text = above ++ z.lines ++ below) :
    zoneLines text = (above.map normaliseMrzLine).filter (28 ≤ ·.length) ++ z.lines ++
      (below.map normaliseMrzLine).filter (28 ≤ ·.length) := by
  have hzone : (z.lines.map normaliseMrzLine).filter (28 ≤ ·.length) = z.lines := by
    have hmap : z.lines.map normaliseMrzLine = z.lines := by
      conv_rhs => rw [← List.map_id z.lines]
      exact List.map_congr_left fun line hline => normaliseMrzLine_mrz (z.lines_width line hline).1
    rw [hmap]
    refine List.filter_eq_self.mpr fun line hline => ?_
    have hwidth := (z.lines_width line hline).2
    cases hf : z.format <;> simp [hf] at hwidth <;> simp [hwidth]
  unfold zoneLines
  rw [h, List.map_append, List.map_append, List.filter_append, List.filter_append, hzone]

theorem Zone.lines_pair (z : Zone) : ∃ first second rest, z.lines = first :: second :: rest := by
  cases z <;> exact ⟨_, _, _, rfl⟩

theorem short_td3 {lines : List (List Char)} (h : ∀ line ∈ lines, line.length < 44) (i : Nat) :
    readTd3 lines i = none := by
  cases hread : readTd3 lines i with
  | none => rfl
  | some r =>
    simp only [readTd3, Option.bind_eq_bind, Option.bind_eq_some_iff,
      Option.ite_none_left_eq_some] at hread
    obtain ⟨_, -, second, hsecond, hwide, -⟩ := hread
    have hlength := h second (List.mem_of_getElem? hsecond)
    omega

theorem short_td2 {lines : List (List Char)} (h : ∀ line ∈ lines, line.length < 36) (i : Nat) :
    readTd2 lines i = none := by
  cases hread : readTd2 lines i with
  | none => rfl
  | some r =>
    simp only [readTd2, Option.bind_eq_bind, Option.bind_eq_some_iff,
      Option.ite_none_left_eq_some] at hread
    obtain ⟨_, -, second, hsecond, hwide, -⟩ := hread
    have hlength := h second (List.mem_of_getElem? hsecond)
    omega

/-- A zone whose state has three letters is read as what it encodes when no line but its own has 28
characters after it is normalised: the layouts tried before its own want wider lines. -/
theorem parseMrz_alone (h : HoldsAlone text z) (hstate : z.document.issuingState.length = 3) :
    parseMrz text = some z.identity := by
  obtain ⟨above, below, hsplit, hshort⟩ := h
  have hdropped (ls : List (List Char)) (h : ∀ line ∈ ls, (normaliseMrzLine line).length < 28) :
      (ls.map normaliseMrzLine).filter (28 ≤ ·.length) = [] := by
    refine List.filter_eq_nil_iff.mpr fun line hline => ?_
    obtain ⟨raw, hraw, rfl⟩ := List.mem_map.mp hline
    have hlength := h raw hraw
    simp only [decide_eq_true_eq]
    omega
  have hlines : zoneLines text = z.lines := by
    rw [zoneLines_zone hsplit, hdropped above fun l hl => (hshort l (List.mem_append_left _ hl)).2,
      hdropped below fun l hl => (hshort l (List.mem_append_right _ hl)).2]
    simp
  obtain ⟨first, second, rest, hpair⟩ := z.lines_pair
  have hfirst : z.lines[0]? = some first := by simp [hpair]
  have hsecond : z.lines[0 + 1]? = some second := by simp [hpair]
  have hread := read_zone z hpair hfirst hsecond
  rw [if_pos hstate] at hread
  have hwidth := fun line hline => (z.lines_width line hline).2
  have hrange : ∃ n, List.range z.lines.length = 0 :: n := by
    rw [hpair]
    exact ⟨_, List.range_succ_eq_map⟩
  obtain ⟨n, hrange⟩ := hrange
  unfold parseMrz
  simp only [hlines, hrange]
  cases hf : z.format with
  | td3 =>
    rw [hf] at hread
    have hthis : readTd3 z.lines 0 = some z.identity := hread
    rw [List.findSome?_cons, hthis]
    rfl
  | td2 =>
    rw [hf] at hread hwidth
    have hthis : readTd2 z.lines 0 = some z.identity := hread
    have hno : (0 :: n).findSome? (readTd3 z.lines) = none := by
      refine List.findSome?_eq_none_iff.mpr fun i _ => short_td3 (fun line hline => ?_) i
      have hlength : line.length = 36 := hwidth line hline
      omega
    rw [hno, List.findSome?_cons (f := readTd2 z.lines), hthis]
    rfl
  | td1 =>
    rw [hf] at hread hwidth
    have hthis : readTd1 z.lines 0 = some z.identity := hread
    have hno3 : (0 :: n).findSome? (readTd3 z.lines) = none := by
      refine List.findSome?_eq_none_iff.mpr fun i _ => short_td3 (fun line hline => ?_) i
      have hlength : line.length = 30 := hwidth line hline
      omega
    have hno2 : (0 :: n).findSome? (readTd2 z.lines) = none := by
      refine List.findSome?_eq_none_iff.mpr fun i _ => short_td2 (fun line hline => ?_) i
      have hlength : line.length = 30 := hwidth line hline
      omega
    rw [hno3, hno2, List.findSome?_cons (f := readTd1 z.lines), hthis]
    rfl

/-- A conformant zone is read only when its state has three letters; it is read then as what it
encodes, and in its own layout, when no line around it becomes one of 28 characters. -/
theorem parseMrz_zone (text : String) (z : Zone) :
    (HoldsAlone text z →
      (parseMrz text = some z.identity ↔ z.document.issuingState.length = 3)) ∧
    (z.document.issuingState.length ≠ 3 → parseMrz text ≠ some z.identity) := by
  have hthree (hread : parseMrz text = some z.identity) : z.document.issuingState.length = 3 := by
    have hstate := parseMrz_state hread
    rw [Zone.identity, String.toList_ofList] at hstate
    exact hstate
  exact ⟨fun halone => ⟨hthree, parseMrz_alone halone⟩, fun hstate hread => hstate (hthree hread)⟩

end Acceptance

section Specimens

/-- A field whose characters have been checked. -/
def MrzField.ofText {n : Nat} (text : String) (hwidth : text.toList.length = n)
    (hallowed : text.toList.all mrzChar = true) : MrzField n :=
  ⟨text.toList, hwidth, List.all_eq_true.mp hallowed⟩

/-- The passport of a holder born in 1964, from a state of one to three letters. -/
def passportOf (state : List Char) (hwidth : 1 ≤ state.length ∧ state.length ≤ 3)
    (hletters : state.all Char.isUpper = true) : Zone :=
  .td3
    { documentCode := ['P']
      issuingState := state
      documentNumber := "C01X00T47".toList
      birth := .ofText "640812" (by decide +kernel) (by decide +kernel)
      expiry := .ofText "270228" (by decide +kernel) (by decide +kernel)
      code_width := by decide
      code_letters := List.all_eq_true.mp (by decide)
      state_width := hwidth
      state_letters := List.all_eq_true.mp hletters
      number_width := by decide +kernel
      number_chars := List.all_eq_true.mp (by decide +kernel) }
    rfl (.ofText "MUSTERMANN<<ERIKA<<<<<<<<<<<<<<<<<<<<<<" (by decide +kernel) (by decide +kernel))
    (.ofText "D<<" (by decide +kernel) (by decide +kernel))
    (.ofText "F" (by decide +kernel) (by decide +kernel))
    (.ofText "<<<<<<<<<<<<<<<4" (by decide +kernel) (by decide +kernel))

def germanPassport : Zone := passportOf ['D'] (by decide) (by decide)

def utopianPassport : Zone := passportOf ['U', 'T', 'O'] (by decide) (by decide)

def germanText : String :=
  "P<D<<MUSTERMANN<<ERIKA<<<<<<<<<<<<<<<<<<<<<<\nC01X00T478D<<6408125F2702283<<<<<<<<<<<<<<<4"

/-- Germany is `D` in a zone, and no German document is read. -/
theorem german_passport_refused : ¬ MrzLaw := by
  intro hlaw
  have hholds : Holds germanText germanPassport :=
    ⟨[], [], by decide +kernel, by simp⟩
  have hread := hlaw germanText germanPassport hholds
  have hnone : parseMrz germanText = none := by decide +kernel
  rw [hnone] at hread
  cases hread

def utopianText : String :=
  "PASSPORT\r\nP<UTOMUSTERMANN<<ERIKA<<<<<<<<<<<<<<<<<<<<<<\r\n" ++
    "C01X00T478D<<6408125F2702283<<<<<<<<<<<<<<<4"

theorem utopian_passport_read : parseMrz utopianText = some utopianPassport.identity := by
  have hsplit : splitLines utopianText = ["PASSPORT".toList] ++ utopianPassport.lines ++ [] := by
    decide +kernel
  have halone : HoldsAlone utopianText utopianPassport := by
    refine ⟨_, _, hsplit, fun line hline => ?_⟩
    rw [List.append_nil, List.mem_singleton] at hline
    rw [hline]
    decide +kernel
  exact ((parseMrz_zone utopianText utopianPassport).1 halone).mpr rfl

end Specimens

end CarSalePro.Kyc
