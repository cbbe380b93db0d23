import CarSalePro.Laws.MrzAcceptance

namespace CarSalePro.Kyc

section Layouts

/-- The fields a layout reads from a pair of lines, each with its check digit. -/
structure ReadFields where
  documentCode : List Char
  issuingState : List Char
  documentNumber : List Char
  numberDigit : Option Char
  birth : List Char
  birthDigit : Option Char
  expiry : List Char
  expiryDigit : Option Char

namespace ReadFields

/-- The number and the two dates agree with their check digits. -/
def digitsAgree (f : ReadFields) : Bool :=
  digitMatches f.documentNumber f.numberDigit && digitMatches f.birth f.birthDigit &&
    digitMatches f.expiry f.expiryDigit

def wellFormed (f : ReadFields) : Bool :=
  (unpad f.issuingState).length = 3 && (unpad f.issuingState).all Char.isUpper &&
    5 ≤ (unpad f.documentNumber).length && (unpad f.documentCode).length ≠ 0

def checksOut (f : ReadFields) : Bool := f.digitsAgree && f.wellFormed

def number (f : ReadFields) : String := String.ofList (unpad f.documentNumber)

end ReadFields

/-- The layouts of two lines. -/
def bookFields (first second : List Char) : ReadFields where
  documentCode := slice first 0 2
  issuingState := slice first 2 5
  documentNumber := slice second 0 9
  numberDigit := second[9]?
  birth := slice second 13 19
  birthDigit := second[19]?
  expiry := slice second 21 27
  expiryDigit := second[27]?

/-- The layout of three lines. -/
def cardFields (first second : List Char) : ReadFields where
  documentCode := slice first 0 2
  issuingState := slice first 2 5
  documentNumber := slice first 5 14
  numberDigit := first[14]?
  birth := slice second 0 6
  birthDigit := second[6]?
  expiry := slice second 8 14
  expiryDigit := second[14]?

namespace Zone

/-- What the zone's own layout reads from lines in its place. -/
def own (z : Zone) (lines : List (List Char)) : ReadFields :=
  match z.format with
  | .td1 => cardFields (lines.getD 0 []) (lines.getD 1 [])
  | _ => bookFields (lines.getD 0 []) (lines.getD 1 [])

/-- What is tried after it. -/
def next (z : Zone) (lines : List (List Char)) : ReadFields :=
  match z.format with
  | .td1 => cardFields (lines.getD 1 []) (lines.getD 2 [])
  | _ => cardFields (lines.getD 0 []) (lines.getD 1 [])

/-- Where the document number stands: its line and its first column. -/
def numberPlace (z : Zone) : Nat × Nat :=
  match z.format with
  | .td1 => (0, 5)
  | _ => (1, 0)

end Zone

/-- One character is read as another that a zone may contain. -/
structure Misread where
  row : Nat
  column : Nat
  read : Char
  allowed : mrzChar read = true

namespace Misread

def apply (m : Misread) (lines : List (List Char)) : List (List Char) :=
  lines.modify m.row (·.set m.column m.read)

/-- The character that stands there. -/
def misses (m : Misread) (lines : List (List Char)) : Option Char :=
  lines[m.row]?.bind (·[m.column]?)

/-- The misread character is one of the document number. -/
def InNumber (m : Misread) (z : Zone) : Prop :=
  m.row = z.numberPlace.1 ∧ z.numberPlace.2 ≤ m.column ∧ m.column < z.numberPlace.2 + 9

/-- A character of the number has become one of the same value modulo 10, and enough of the number
is left. -/
def Unnoticed (m : Misread) (z : Zone) (was : Char) : Prop :=
  m.InNumber z ∧ mrzValue was % 10 = mrzValue m.read % 10 ∧
    5 ≤ (unpad (z.own (m.apply z.lines)).documentNumber).length

end Misread

/-- The text is read as nothing, or as the zone's document. -/
def Harmless (z : Zone) (text : String) : Prop :=
  ∀ r, parseMrz text = some r → r.documentNumber = z.identity.documentNumber

/-- No misread of one character yields another document number. -/
def MisreadLaw : Prop :=
  ∀ (z : Zone) (text misread : String) (m : Misread) (was : Char), splitLines text = z.lines →
    parseMrz text = some z.identity → m.misses z.lines = some was → was ≠ m.read →
    splitLines misread = m.apply z.lines → Harmless z misread

end Layouts

section Sums

variable {field before after : List Char} {a b c : Char}

theorem split_at {k : Nat} (h : field[k]? = some a) :
    ∃ before after, field = before ++ a :: after ∧ before.length = k := by
  obtain ⟨hk, ha⟩ := List.getElem?_eq_some_iff.mp h
  refine ⟨field.take k, field.drop (k + 1), ?_, ?_⟩
  · rw [← ha, ← List.drop_eq_getElem_cons hk, List.take_append_drop]
  · rw [List.length_take]
    omega

theorem set_split {k : Nat} (h : before.length = k) :
    (before ++ a :: after).set k c = before ++ c :: after := by
  subst h
  simp

theorem mrz_split (h : ∀ x ∈ before ++ a :: after, mrzChar x = true) (hc : mrzChar c = true) :
    ∀ x ∈ before ++ c :: after, mrzChar x = true := by
  intro x hx
  rcases List.mem_append.mp hx with hx | hx
  · exact h x (List.mem_append_left _ hx)
  · rcases List.mem_cons.mp hx with rfl | hx
    · exact hc
    · exact h x (List.mem_append_right _ (List.mem_cons_of_mem a hx))

/-- What one character adds to the sum. -/
theorem checkSum_split (h : ∀ x ∈ before ++ a :: after, mrzChar x = true) :
    checkSum (before ++ a :: after) =
      (before.zipIdx.map fun x => mrzValue x.1 * mrzWeight x.2).sum +
        (mrzValue a * mrzWeight before.length +
          ((after.zipIdx (before.length + 1)).map fun x => mrzValue x.1 * mrzWeight x.2).sum) := by
  rw [← (checkSum_eq h 0 rfl).2, List.zipIdx_append, List.map_append, List.sum_append]
  simp only [Nat.zero_add, List.zipIdx_cons, List.map_cons, List.sum_cons]

/-- The weights are prime to ten, so that the sum tells two characters apart exactly when their
values differ modulo 10. -/
theorem checkSum_misread (h : ∀ x ∈ before ++ a :: after, mrzChar x = true)
    (hc : mrzChar c = true) :
    checkSum (before ++ c :: after) % 10 = checkSum (before ++ a :: after) % 10 ↔
      mrzValue a % 10 = mrzValue c % 10 := by
  rw [checkSum_split h, checkSum_split (mrz_split h hc)]
  have hweight : mrzWeight before.length = 7 ∨ mrzWeight before.length = 3 ∨
      mrzWeight before.length = 1 := by
    unfold mrzWeight
    split
    · exact .inl rfl
    · split
      · exact .inr (.inl rfl)
      · exact .inr (.inr rfl)
  generalize (before.zipIdx.map fun x => mrzValue x.1 * mrzWeight x.2).sum = s
  generalize ((after.zipIdx (before.length + 1)).map fun x => mrzValue x.1 * mrzWeight x.2).sum = t
  rcases hweight with hw | hw | hw <;> rw [hw] <;> omega

theorem digitMatches_iff (h : ∀ x ∈ field, mrzChar x = true) {digit : Option Char} :
    digitMatches field digit = true ↔
      ∃ d, digit = some d ∧ d.isDigit = true ∧ checkSum field % 10 = d.toNat - 48 := by
  cases digit with
  | none => simp [digitMatches]
  | some d => simp [digitMatches, mrzCheckDigit_eq h]

/-- A check digit that agrees with a field agrees with its misreading only when the two characters
have one value modulo 10. -/
theorem digitMatches_misread (h : ∀ x ∈ before ++ a :: after, mrzChar x = true)
    (hc : mrzChar c = true) {digit : Option Char}
    (hmatch : digitMatches (before ++ a :: after) digit = true) :
    digitMatches (before ++ c :: after) digit = true ↔ mrzValue a % 10 = mrzValue c % 10 := by
  obtain ⟨d, rfl, hd, hsum⟩ := (digitMatches_iff h).mp hmatch
  rw [digitMatches_iff (mrz_split h hc), ← checkSum_misread h hc]
  constructor
  · rintro ⟨e, he, -, hsum'⟩
    cases he
    rw [hsum', hsum]
  · intro heq
    exact ⟨d, rfl, hd, by rw [heq, hsum]⟩

theorem unpad_eq (field : List Char) : unpad field = field.filter (· ≠ '<') := by
  unfold unpad
  induction field using List.reverseRecOn with
  | nil => rfl
  | append_singleton field c ih =>
    by_cases hc : c = '<'
    · subst hc
      rw [List.rdropWhile_concat_pos _ _ _ (by simp), ih, List.filter_append]
      simp
    · rw [List.rdropWhile_concat_neg _ _ _ (by simpa using hc)]

/-- No two readings of one place leave the same number. -/
theorem unpad_misread (hne : a ≠ c) :
    unpad (before ++ c :: after) ≠ unpad (before ++ a :: after) := by
  rw [unpad_eq, unpad_eq, List.filter_append, List.filter_append]
  intro heq
  have htail := List.append_cancel_left heq
  by_cases ha : a = '<'
  · subst ha
    have hc : c ≠ '<' := fun h => hne h.symm
    have hlength := congrArg List.length htail
    simp [hc] at hlength
  · by_cases hc : c = '<'
    · subst hc
      have hlength := congrArg List.length htail
      simp [ha] at hlength
    · simp [ha, hc] at htail
      exact hne htail.symm

end Sums

section Outcome

variable {lines : List (List Char)} {first second third : List Char} {text : String} {z : Zone}

theorem build_number (f : ReadFields) (format : MrzFormat) :
    (build format f.documentCode f.issuingState f.documentNumber).map (·.documentNumber) =
      if f.wellFormed then some f.number else none := by
  unfold build ReadFields.wellFormed ReadFields.number
  by_cases hstate : (unpad f.issuingState).length = 3 ∧ (unpad f.issuingState).all Char.isUpper
  · by_cases hnumber : (unpad f.documentNumber).length < 5
    · simp [hnumber, Nat.not_le.mpr hnumber]
    · by_cases hcode : (unpad f.documentCode).length = 0
      · simp [hcode]
      · simp only [hstate, hnumber, hcode, Nat.not_lt.mp hnumber]
        simpa using hcode
  · have hno : ¬ ((unpad f.issuingState).length = 3 ∧
        ∀ x ∈ unpad f.issuingState, x.isUpper = true) := by
      simpa using hstate
    simp only [hstate, not_false_eq_true, if_true]
    simp [hno]

/-- What a layout answers once its lines are long enough. -/
theorem checked_number (f : ReadFields) (format : MrzFormat) :
    (if ¬ digitMatches f.documentNumber f.numberDigit then none
      else if ¬ digitMatches f.birth f.birthDigit then none
      else if ¬ digitMatches f.expiry f.expiryDigit then none
      else build format f.documentCode f.issuingState f.documentNumber).map (·.documentNumber) =
      if f.checksOut then some f.number else none := by
  unfold ReadFields.checksOut ReadFields.digitsAgree
  by_cases hnumber : digitMatches f.documentNumber f.numberDigit
  · by_cases hbirth : digitMatches f.birth f.birthDigit
    · by_cases hexpiry : digitMatches f.expiry f.expiryDigit
      · simp only [hnumber, hbirth, hexpiry, not_true_eq_false, if_false, Bool.true_and]
        exact build_number f format
      · simp [hexpiry]
    · simp [hbirth]
  · simp [hnumber]

theorem card_number {i : Nat} (hfirst : lines[i]? = some first)
    (hsecond : lines[i + 1]? = some second) (hone : 15 ≤ first.length)
    (htwo : 15 ≤ second.length) :
    (readTd1 lines i).map (·.documentNumber) =
      if (cardFields first second).checksOut then some (cardFields first second).number
      else none := by
  have hlong : ¬ (first.length < 15 ∨ second.length < 15) := by omega
  unfold readTd1
  simp only [hfirst, hsecond, Option.bind_eq_bind, Option.bind_some, if_neg hlong]
  exact checked_number (cardFields first second) .td1

theorem visa_number {i : Nat} (hfirst : lines[i]? = some first)
    (hsecond : lines[i + 1]? = some second) (hone : 5 ≤ first.length)
    (htwo : 36 ≤ second.length) :
    (readTd2 lines i).map (·.documentNumber) =
      if (bookFields first second).checksOut then some (bookFields first second).number
      else none := by
  have hlong : ¬ (first.length < 5 ∨ second.length < 36) := by omega
  unfold readTd2
  simp only [hfirst, hsecond, Option.bind_eq_bind, Option.bind_some, if_neg hlong]
  exact checked_number (bookFields first second) .td2

theorem passport_number {i : Nat} (hfirst : lines[i]? = some first)
    (hsecond : lines[i + 1]? = some second) (hone : 5 ≤ first.length)
    (htwo : 44 ≤ second.length) :
    (readTd3 lines i).map (·.documentNumber) =
      if first[0]? = some 'P' ∧ (bookFields first second).checksOut then
        some (bookFields first second).number
      else none := by
  have hlong : ¬ (first.length < 5 ∨ second.length < 44) := by omega
  unfold readTd3
  simp only [hfirst, hsecond, Option.bind_eq_bind, Option.bind_some, if_neg hlong]
  by_cases hP : first[0]? = some 'P'
  · simp only [hP, ne_eq, not_true_eq_false, if_false, true_and]
    exact checked_number (bookFields first second) .td3
  · simp [hP]

/-- No layout is read from the last line on. -/
theorem last_line {i : Nat} (h : lines.length ≤ i + 1) :
    readTd3 lines i = none ∧ readTd2 lines i = none ∧ readTd1 lines i = none := by
  have hnone : lines[i + 1]? = none := List.getElem?_eq_none h
  cases hfirst : lines[i]? with
  | none => simp [readTd3, readTd2, readTd1, hfirst]
  | some first => simp [readTd3, readTd2, readTd1, hfirst, hnone]

/-- The lines have the shape of the zone's own. -/
def Zone.Shape (z : Zone) (lines : List (List Char)) : Prop :=
  lines.length = z.lines.length ∧ ∀ line ∈ lines, (∀ c ∈ line, mrzChar c = true) ∧
    line.length = match z.format with
      | .td3 => 44
      | .td2 => 36
      | .td1 => 30

theorem Zone.shape (z : Zone) : z.Shape z.lines := ⟨rfl, z.lines_width⟩

theorem zoneLines_shape (hsplit : splitLines text = lines) (h : z.Shape lines) :
    zoneLines text = lines := by
  have hmap : lines.map normaliseMrzLine = lines := by
    conv_rhs => rw [← List.map_id lines]
    exact List.map_congr_left fun line hline => normaliseMrzLine_mrz (h.2 line hline).1
  unfold zoneLines
  rw [hsplit, hmap]
  refine List.filter_eq_self.mpr fun line hline => ?_
  have hwidth := (h.2 line hline).2
  cases hf : z.format <;> simp [hf] at hwidth <;> simp [hwidth]

/-- The first layout that reads the text, by number. -/
theorem parseMrz_number (text : String) :
    (parseMrz text).map (·.documentNumber) =
      (((List.range (zoneLines text).length).findSome? fun i =>
          (readTd3 (zoneLines text) i).map (·.documentNumber)).or
        (((List.range (zoneLines text).length).findSome? fun i =>
            (readTd2 (zoneLines text) i).map (·.documentNumber)).or
          ((List.range (zoneLines text).length).findSome? fun i =>
            (readTd1 (zoneLines text) i).map (·.documentNumber)))) := by
  have hmap (read : Nat → Option MrzIdentity) (indices : List Nat) :
      (indices.findSome? read).map (·.documentNumber) =
        indices.findSome? fun i => (read i).map (·.documentNumber) := by
    induction indices with
    | nil => rfl
    | cons i indices ih =>
      rw [List.findSome?_cons, List.findSome?_cons]
      cases read i with
      | none => exact ih
      | some r => rfl
  unfold parseMrz
  simp only [Option.map_or, hmap]

/-- Lines of a zone's shape are read in the zone's own layout, or else in the one tried after it. -/
theorem read_number (hsplit : splitLines text = lines) (h : z.Shape lines) :
    (parseMrz text).map (·.documentNumber) =
      if (z.own lines).checksOut then some (z.own lines).number
      else if (z.next lines).checksOut then some (z.next lines).number else none := by
  rw [parseMrz_number, zoneLines_shape hsplit h]
  obtain ⟨hcount, hlines⟩ := h
  have hwide := fun line hline => (hlines line hline).2
  cases z with
  | td3 d passport name nationality sex tail =>
    obtain ⟨first, second, rfl⟩ := List.length_eq_two.mp hcount
    have hone : first.length = 44 := hwide first (by simp)
    have htwo : second.length = 44 := hwide second (by simp)
    have hzero : [first, second][0]? = some first := rfl
    have hnext : [first, second][0 + 1]? = some second := rfl
    have hlength : [first, second].length ≤ 1 + 1 := le_rfl
    obtain ⟨hlast3, hlast2, hlast1⟩ := last_line hlength
    have hbook3 := passport_number hzero hnext (by omega) (by omega)
    have hbook2 := visa_number hzero hnext (by omega) (by omega)
    have hcard := card_number hzero hnext (by omega) (by omega)
    show _ = if (bookFields first second).checksOut then some (bookFields first second).number
      else if (cardFields first second).checksOut then some (cardFields first second).number
      else none
    simp only [List.length_cons, List.length_nil, List.range, List.range.loop,
      List.findSome?_cons, List.findSome?_nil, hlast3, hlast2, hlast1, hbook3, hbook2, hcard]
    by_cases hP : first[0]? = some 'P' <;>
      by_cases hbook : (bookFields first second).checksOut <;>
      by_cases hcheck : (cardFields first second).checksOut <;> simp [hP, hbook, hcheck]
  | td2 d name nationality sex tail =>
    obtain ⟨first, second, rfl⟩ := List.length_eq_two.mp hcount
    have hone : first.length = 36 := hwide first (by simp)
    have htwo : second.length = 36 := hwide second (by simp)
    have hzero : [first, second][0]? = some first := rfl
    have hnext : [first, second][0 + 1]? = some second := rfl
    have hlength : [first, second].length ≤ 1 + 1 := le_rfl
    obtain ⟨-, hlast2, hlast1⟩ := last_line hlength
    have hshort (i : Nat) : readTd3 [first, second] i = none := by
      refine short_td3 (fun line hline => ?_) i
      have hwidth : line.length = 36 := hwide line hline
      omega
    have hbook2 := visa_number hzero hnext (by omega) (by omega)
    have hcard := card_number hzero hnext (by omega) (by omega)
    show _ = if (bookFields first second).checksOut then some (bookFields first second).number
      else if (cardFields first second).checksOut then some (cardFields first second).number
      else none
    simp only [List.length_cons, List.length_nil, List.range, List.range.loop,
      List.findSome?_cons, List.findSome?_nil, hshort, hlast2, hlast1, hbook2, hcard]
    by_cases hbook : (bookFields first second).checksOut <;>
      by_cases hcheck : (cardFields first second).checksOut <;> simp [hbook, hcheck]
  | td1 d optional sex tail name =>
    obtain ⟨first, second, third, rfl⟩ := List.length_eq_three.mp hcount
    have hone : first.length = 30 := hwide first (by simp)
    have htwo : second.length = 30 := hwide second (by simp)
    have hthree : third.length = 30 := hwide third (by simp)
    have hzero : [first, second, third][0]? = some first := rfl
    have hnext : [first, second, third][0 + 1]? = some second := rfl
    have hsucc : [first, second, third][1 + 1]? = some third := rfl
    have hlength : [first, second, third].length ≤ 2 + 1 := le_rfl
    obtain ⟨-, -, hlast1⟩ := last_line hlength
    have hshort3 (i : Nat) : readTd3 [first, second, third] i = none := by
      refine short_td3 (fun line hline => ?_) i
      have hwidth : line.length = 30 := hwide line hline
      omega
    have hshort2 (i : Nat) : readTd2 [first, second, third] i = none := by
      refine short_td2 (fun line hline => ?_) i
      have hwidth : line.length = 30 := hwide line hline
      omega
    have hcard := card_number hzero hnext (by omega) (by omega)
    have hcard' := card_number hnext hsucc (by omega) (by omega)
    show _ = if (cardFields first second).checksOut then some (cardFields first second).number
      else if (cardFields second third).checksOut then some (cardFields second third).number
      else none
    simp only [List.length_cons, List.length_nil, List.range, List.range.loop,
      List.findSome?_cons, List.findSome?_nil, hshort3, hshort2, hlast1, hcard, hcard']
    by_cases hcheck : (cardFields first second).checksOut <;>
      by_cases hcheck' : (cardFields second third).checksOut <;> simp [hcheck, hcheck']

end Outcome

section Misreading

variable {lines : List (List Char)} {line : List Char} {z : Zone} {m : Misread} {was : Char}

theorem slice_outside {start stop j : Nat} {c : Char} (h : j < start ∨ stop ≤ j) :
    slice (line.set j c) start stop = slice line start stop := by
  unfold slice
  rw [List.take_set]
  rcases h with h | h
  · rw [List.drop_set_of_lt h]
  · rw [List.set_eq_of_length_le]
    rw [List.length_take]
    omega

theorem slice_inside {start stop j : Nat} {c : Char} (h : start ≤ j) :
    slice (line.set j c) start stop = (slice line start stop).set (j - start) c := by
  unfold slice
  rw [List.take_set, List.drop_set, if_neg (Nat.not_lt.mpr h)]

/-- Every line but the misread one stays. -/
theorem apply_line (m : Misread) (lines : List (List Char)) (i : Nat) :
    (m.apply lines).getD i [] =
      if m.row = i then (lines.getD i []).set m.column m.read else lines.getD i [] := by
  unfold Misread.apply
  rw [List.getD_eq_getElem?_getD, List.getD_eq_getElem?_getD, List.getElem?_modify]
  split
  next =>
    cases lines[i]? with
    | none => rfl
    | some line => rfl
  next =>
    cases lines[i]? with
    | none => rfl
    | some line => rfl

theorem apply_shape (h : z.Shape lines) : z.Shape (m.apply lines) := by
  obtain ⟨hcount, hlines⟩ := h
  constructor
  · rw [Misread.apply, List.length_modify]
    exact hcount
  · intro line hline
    obtain ⟨i, hi⟩ := List.mem_iff_getElem?.mp hline
    rw [Misread.apply, List.getElem?_modify] at hi
    obtain ⟨old, hold, heq⟩ := Option.map_eq_some_iff.mp hi
    obtain ⟨hmrz, hwidth⟩ := hlines old (List.mem_of_getElem? hold)
    rw [← heq]
    split
    next =>
      constructor
      · intro c hc
        rcases List.mem_or_eq_of_mem_set hc with hc | rfl
        · exact hmrz c hc
        · exact m.allowed
      · rw [List.length_set]
        exact hwidth
    next => exact ⟨hmrz, hwidth⟩

/-- A misread inside the number changes nothing else that the zone's layout reads. -/
theorem own_inNumber (lines : List (List Char)) (h : m.InNumber z) : z.own (m.apply lines) =
    { z.own lines with
      documentNumber := (z.own lines).documentNumber.set (m.column - z.numberPlace.2) m.read } := by
  obtain ⟨hrow, hleft, hright⟩ := h
  cases z with
  | td3 | td2 =>
    have hone : m.row = 1 := hrow
    have hcolumn : m.column < 0 + 9 := hright
    show bookFields ((m.apply lines).getD 0 []) ((m.apply lines).getD 1 []) = _
    rw [apply_line, apply_line, if_neg (by omega), if_pos hone]
    unfold bookFields
    rw [slice_inside (Nat.zero_le _), slice_outside (.inl (by omega)),
      slice_outside (.inl (by omega)), List.getElem?_set_ne (by omega),
      List.getElem?_set_ne (by omega), List.getElem?_set_ne (by omega)]
    rfl
  | td1 =>
    have hzero : m.row = 0 := hrow
    have hcolumn : m.column < 5 + 9 := hright
    have hfive : 5 ≤ m.column := hleft
    show cardFields ((m.apply lines).getD 0 []) ((m.apply lines).getD 1 []) = _
    rw [apply_line, apply_line, if_neg (by omega : ¬ m.row = 1), if_pos hzero]
    unfold cardFields
    rw [slice_inside hfive, slice_outside (.inr (by omega)), slice_outside (.inr (by omega)),
      List.getElem?_set_ne (by omega)]
    rfl

/-- A misread elsewhere leaves the number. -/
theorem own_outside (h : ¬ m.InNumber z) :
    (z.own (m.apply lines)).documentNumber = (z.own lines).documentNumber := by
  cases z with
  | td3 | td2 =>
    have hno : ¬ (m.row = 1 ∧ 0 ≤ m.column ∧ m.column < 0 + 9) := h
    show slice ((m.apply lines).getD 1 []) 0 9 = slice (lines.getD 1 []) 0 9
    rw [apply_line]
    split
    next hrow => exact slice_outside (.inr (by omega))
    next => rfl
  | td1 =>
    have hno : ¬ (m.row = 0 ∧ 5 ≤ m.column ∧ m.column < 5 + 9) := h
    show slice ((m.apply lines).getD 0 []) 5 14 = slice (lines.getD 0 []) 5 14
    rw [apply_line]
    split
    next hrow => exact slice_outside (by omega)
    next => rfl

theorem of_given {p : Prop} [Decidable p] {given number : String}
    (h : some given = if p then some number else none) : p := by
  by_contra hno
  rw [if_neg hno] at h
  cases h

/-- A zone that is read checks out in its own layout. -/
theorem own_zone (z : Zone) (hstate : z.document.issuingState.length = 3) :
    (z.own z.lines).checksOut = true ∧
      (z.own z.lines).documentNumber = padTo 9 z.document.documentNumber := by
  obtain ⟨first, second, rest, hpair⟩ := z.lines_pair
  have hfirst : z.lines[0]? = some first := by simp [hpair]
  have hsecond : z.lines[0 + 1]? = some second := by simp [hpair]
  have hread := read_zone z hpair hfirst hsecond
  rw [if_pos hstate] at hread
  have hwide := fun line hline => (z.lines_width line hline).2
  have hone := hwide first (by simp [hpair])
  have htwo := hwide second (by simp [hpair])
  cases z with
  | td3 d passport name nationality sex tail =>
    have hthis : readTd3 (Zone.td3 d passport name nationality sex tail).lines 0 = some _ := hread
    have hlength : first.length = 44 := hone
    have hlength' : second.length = 44 := htwo
    have hnumber := passport_number hfirst hsecond (by omega) (by omega)
    rw [hthis] at hnumber
    cases hpair
    exact ⟨(of_given hnumber).2, (numbered_field d [] _ rfl).1⟩
  | td2 d name nationality sex tail =>
    have hthis : readTd2 (Zone.td2 d name nationality sex tail).lines 0 = some _ := hread
    have hlength : first.length = 36 := hone
    have hlength' : second.length = 36 := htwo
    have hnumber := visa_number hfirst hsecond (by omega) (by omega)
    rw [hthis] at hnumber
    cases hpair
    exact ⟨of_given hnumber, (numbered_field d [] _ rfl).1⟩
  | td1 d optional sex tail name =>
    have hthis : readTd1 (Zone.td1 d optional sex tail name).lines 0 = some _ := hread
    have hlength : first.length = 30 := hone
    have hlength' : second.length = 30 := htwo
    have hnumber := card_number hfirst hsecond (by omega) (by omega)
    rw [hthis] at hnumber
    cases hpair
    constructor
    · exact of_given hnumber
    · have hcode := padTo_length d.code_width.2
      have hletters := padTo_length d.state_width.2
      have hbefore : (padTo 2 d.documentCode ++ padTo 3 d.issuingState).length = 5 := by
        rw [List.length_append, hcode, hletters]
      have hfield := (numbered_field d (padTo 2 d.documentCode ++ padTo 3 d.issuingState)
        optional.chars hbefore).1
      rw [List.append_assoc] at hfield
      exact hfield

/-- Where the misread is in the number, it stands in the field. -/
theorem misses_number (h : m.InNumber z) (hwas : m.misses z.lines = some was) :
    (z.own z.lines).documentNumber[m.column - z.numberPlace.2]? = some was := by
  have hfield (chars : List Char) {start : Nat} (hleft : start ≤ m.column)
      (hright : m.column < start + 9) :
      (slice chars start (start + 9))[m.column - start]? = chars[m.column]? := by
    unfold slice
    rw [List.getElem?_drop, List.getElem?_take, if_pos (by omega)]
    congr 1
    omega
  obtain ⟨hrow, hleft, hright⟩ := h
  obtain ⟨line, hline, hchar⟩ := Option.bind_eq_some_iff.mp hwas
  have hgetD : z.lines.getD m.row [] = line := by
    rw [List.getD_eq_getElem?_getD, hline]
    rfl
  cases z with
  | td3 | td2 =>
    have hthis := hfield line hleft hright
    rw [← hgetD, hrow] at hthis
    rw [← hchar, ← hgetD, hrow]
    exact hthis
  | td1 =>
    have hthis := hfield line hleft hright
    rw [← hgetD, hrow] at hthis
    rw [← hchar, ← hgetD, hrow]
    exact hthis

/-- A misread of the number is noticed by its check digit, or by what is left of it. -/
theorem inNumber_checksOut (hstate : z.document.issuingState.length = 3)
    (hwas : m.misses z.lines = some was) (hne : was ≠ m.read) (h : m.InNumber z) :
    ((z.own (m.apply z.lines)).checksOut = true ↔ m.Unnoticed z was) ∧
      (z.own (m.apply z.lines)).number ≠ z.identity.documentNumber := by
  obtain ⟨hchecks, hnumber⟩ := own_zone z hstate
  have hin := misses_number h hwas
  obtain ⟨before, after, hsplit, hlength⟩ := split_at hin
  have hown := own_inNumber z.lines h
  rw [hsplit, set_split hlength] at hown
  have hmrz : ∀ x ∈ before ++ was :: after, mrzChar x = true := by
    rw [← hsplit, hnumber]
    exact padTo_allowed z.document.number_mrz
  simp only [ReadFields.checksOut, ReadFields.digitsAgree, ReadFields.wellFormed,
    Bool.and_eq_true, decide_eq_true_eq] at hchecks
  obtain ⟨⟨⟨hdigit, hbirth⟩, hexpiry⟩, ⟨⟨hthree, hupper⟩, hfive⟩, hcode⟩ := hchecks
  rw [hsplit] at hdigit
  have hmisread := digitMatches_misread hmrz m.allowed hdigit
  constructor
  · unfold Misread.Unnoticed
    rw [hown]
    simp only [ReadFields.checksOut, ReadFields.digitsAgree, ReadFields.wellFormed,
      Bool.and_eq_true, decide_eq_true_eq, hmisread, hbirth, hexpiry, hthree, hupper, h]
    tauto
  · rw [hown]
    intro heq
    have hchars := String.ofList_injective heq
    have hold : unpad (before ++ was :: after) = z.document.documentNumber := by
      rw [← hsplit, hnumber]
      exact unpad_padTo 9 _ (letters_unfilled z.document.number_chars)
    exact unpad_misread hne (hchars.trans hold.symm)

/-- A misread zone is harmless exactly when no character of its number has become one of the same
value modulo 10, and the lines are not read in the layout tried after the zone's own, when they no
longer check out in that one. -/
theorem misread_harmless (z : Zone) (text misread : String) (m : Misread) (was : Char)
    (hsplit : splitLines text = z.lines) (hread : parseMrz text = some z.identity)
    (hwas : m.misses z.lines = some was) (hne : was ≠ m.read)
    (hmisread : splitLines misread = m.apply z.lines) :
    Harmless z misread ↔ ¬ m.Unnoticed z was ∧
      ((z.own (m.apply z.lines)).checksOut = true ∨
        ((z.next (m.apply z.lines)).checksOut = true →
          (z.next (m.apply z.lines)).number = z.identity.documentNumber)) := by
  have hstate := parseMrz_state hread
  rw [Zone.identity, String.toList_ofList] at hstate
  have hnumbers := read_number hmisread (apply_shape z.shape)
  have hharmless : Harmless z misread ↔
      ∀ n, (parseMrz misread).map (·.documentNumber) = some n →
        n = z.identity.documentNumber := by
    constructor
    · intro h n hn
      obtain ⟨r, hr, rfl⟩ := Option.map_eq_some_iff.mp hn
      exact h r hr
    · intro h r hr
      exact h _ (by rw [hr]; rfl)
  rw [hharmless, hnumbers]
  by_cases hin : m.InNumber z
  · obtain ⟨hnoticed, hother⟩ := inNumber_checksOut hstate hwas hne hin
    by_cases hchecks : (z.own (m.apply z.lines)).checksOut = true
    · simp [hchecks, hnoticed.mp hchecks, hother]
    · have hno : ¬ m.Unnoticed z was := fun h => hchecks (hnoticed.mpr h)
      by_cases hnext : (z.next (m.apply z.lines)).checksOut = true <;> simp [hchecks, hno, hnext]
  · have hno : ¬ m.Unnoticed z was := fun h => hin h.1
    have hsame : (z.own (m.apply z.lines)).number = z.identity.documentNumber := by
      unfold ReadFields.number
      rw [own_outside hin, (own_zone z hstate).2,
        unpad_padTo 9 _ (letters_unfilled z.document.number_chars)]
      rfl
    by_cases hchecks : (z.own (m.apply z.lines)).checksOut = true
    · simp [hchecks, hno, hsame]
    · by_cases hnext : (z.next (m.apply z.lines)).checksOut = true <;> simp [hchecks, hno, hnext]

end Misreading

section Specimens

/-- The zero of the number is read as an A. -/
def zeroAsA : Misread := ⟨1, 1, 'A', rfl⟩

def plainText : String :=
  "P<UTOMUSTERMANN<<ERIKA<<<<<<<<<<<<<<<<<<<<<<\nC01X00T478D<<6408125F2702283<<<<<<<<<<<<<<<4"

def misreadText : String :=
  "P<UTOMUSTERMANN<<ERIKA<<<<<<<<<<<<<<<<<<<<<<\nCA1X00T478D<<6408125F2702283<<<<<<<<<<<<<<<4"

/-- The zero of the number is read as an O. -/
def zeroAsO : Misread := ⟨1, 1, 'O', rfl⟩

def noticedText : String :=
  "P<UTOMUSTERMANN<<ERIKA<<<<<<<<<<<<<<<<<<<<<<\nCO1X00T478D<<6408125F2702283<<<<<<<<<<<<<<<4"

/-- An O is noticed by the check digit, and does no harm. -/
theorem misread_harmless_passport :
    (Harmless utopianPassport misreadText ↔ ¬ zeroAsA.Unnoticed utopianPassport '0' ∧
      ((utopianPassport.own (zeroAsA.apply utopianPassport.lines)).checksOut = true ∨
        ((utopianPassport.next (zeroAsA.apply utopianPassport.lines)).checksOut = true →
          (utopianPassport.next (zeroAsA.apply utopianPassport.lines)).number =
            utopianPassport.identity.documentNumber))) ∧
      Harmless utopianPassport noticedText := by
  have hsplit : splitLines plainText = utopianPassport.lines := by decide +kernel
  have hread : parseMrz plainText = some utopianPassport.identity := by decide +kernel
  constructor
  · have hwas : zeroAsA.misses utopianPassport.lines = some '0' := by decide +kernel
    have hmisread : splitLines misreadText = zeroAsA.apply utopianPassport.lines := by
      decide +kernel
    exact misread_harmless utopianPassport plainText misreadText zeroAsA '0' hsplit hread hwas
      (by decide) hmisread
  · have hwas : zeroAsO.misses utopianPassport.lines = some '0' := by decide +kernel
    have hmisread : splitLines noticedText = zeroAsO.apply utopianPassport.lines := by
      decide +kernel
    have hnext : (utopianPassport.next (zeroAsO.apply utopianPassport.lines)).checksOut = false :=
      by decide +kernel
    refine (misread_harmless utopianPassport plainText noticedText zeroAsO '0' hsplit hread hwas
      (by decide) hmisread).mpr ⟨fun h => absurd h.2.1 (by decide), .inr fun h => ?_⟩
    rw [hnext] at h
    cases h

/-- A zero and an A have the same value modulo 10, and the passport is read under another number. -/
theorem zero_misread : ¬ MisreadLaw := by
  intro hlaw
  have hsplit : splitLines plainText = utopianPassport.lines := by decide +kernel
  have hread : parseMrz plainText = some utopianPassport.identity := by decide +kernel
  have hwas : zeroAsA.misses utopianPassport.lines = some '0' := by decide +kernel
  have hmisread : splitLines misreadText = zeroAsA.apply utopianPassport.lines := by decide +kernel
  have hharmless := hlaw utopianPassport plainText misreadText zeroAsA '0' hsplit hread hwas
    (by decide) hmisread
  have hother : parseMrz misreadText =
      some { utopianPassport.identity with documentNumber := "CA1X00T47" } := by decide +kernel
  have hsame := hharmless _ hother
  revert hsame
  decide +kernel

end Specimens

end CarSalePro.Kyc
