import CarSalePro.Search.Respelling

namespace CarSalePro.Search

section Keys

variable {U : Unicode} {key : String} {keys more : List String}

theorem mem_addKey {added : String} : key ∈ addKey keys added ↔ key ∈ keys ∨ key = added := by
  unfold addKey
  by_cases hmem : added ∈ keys
  · rw [if_pos hmem]
    constructor
    · exact Or.inl
    · rintro (h | rfl)
      · exact h
      · exact hmem
  · rw [if_neg hmem, List.mem_append, List.mem_singleton]

theorem mem_foldl_addKey : key ∈ more.foldl addKey keys ↔ key ∈ keys ∨ key ∈ more := by
  induction more generalizing keys with
  | nil => simp
  | cons added more ih => rw [List.foldl_cons, ih, mem_addKey, List.mem_cons, or_assoc]

theorem mem_foldl_aliases {groups : List String} :
    key ∈ groups.foldl (fun out name => (aliasesOf U name).foldl addKey out) keys ↔
      key ∈ keys ∨ ∃ name ∈ groups, key ∈ aliasesOf U name := by
  induction groups generalizing keys with
  | nil => simp
  | cons name groups ih =>
    rw [List.foldl_cons, ih, mem_foldl_addKey, or_assoc]
    simp only [List.mem_cons, exists_eq_or_imp]

theorem mem_keys {base other collapsed : String} {cond : Prop} [Decidable cond] :
    key ∈ (if cond then addKey (if other = "" then [base] else addKey [base] other) collapsed
      else if other = "" then [base] else addKey [base] other) ↔
    key = base ∨ (other ≠ "" ∧ key = other) ∨ cond ∧ key = collapsed := by
  have hbase : key ∈ (if other = "" then [base] else addKey [base] other) ↔
      key = base ∨ other ≠ "" ∧ key = other := by
    by_cases hother : other = ""
    · rw [if_pos hother, List.mem_singleton]
      tauto
    · rw [if_neg hother, mem_addKey, List.mem_singleton]
      tauto
  by_cases hcond : cond
  · rw [if_pos hcond, mem_addKey, hbase]
    tauto
  · rw [if_neg hcond, hbase]
    tauto

/-- The text that `citySearchKeys` looks for beside the folded one. -/
def germanKey (U : Unicode) (input : String) : String :=
  normalizeSearchText U
    (some (String.ofList (replaceLetters german (U.toLowerCase input.toList))))

def collapsedKey (U : Unicode) (input : String) : String :=
  String.ofList (collapseUmlauts (normalizeSearchText U (some input)).toList)

/-- The spellings of a text that the keys start from. -/
def IsSpelling (U : Unicode) (input key : String) : Prop :=
  key = normalizeSearchText U (some input) ∨
    (germanKey U input ≠ "" ∧ key = germanKey U input) ∨
    collapsedKey U input ≠ normalizeSearchText U (some input) ∧
      3 ≤ utf16Length (collapsedKey U input).toList ∧ key = collapsedKey U input

theorem mem_citySearchKeys {input : String} : key ∈ citySearchKeys U (some input) ↔
    normalizeSearchText U (some input) ≠ "" ∧
      (IsSpelling U input key ∨ ∃ name, IsSpelling U input name ∧ key ∈ aliasesOf U name) := by
  by_cases hbase : normalizeSearchText U (some input) = ""
  · rw [citySearchKeys, if_pos hbase]
    simp [hbase]
  · rw [and_iff_right hbase]
    simp only [citySearchKeys, hbase, if_false, Option.getD_some, mem_foldl_aliases, mem_keys,
      IsSpelling, germanKey, collapsedKey, and_assoc]

end Keys

section Expansion

variable {U : Unicode} {s e : String}

/-- A query for the one text reaches what is stored for the other. -/
def Finds (U : Unicode) (query stored : String) : Prop :=
  ∃ key ∈ citySearchKeys U (some query),
    key.toList <:+: (normalizeSearchText U (some stored)).toList

/-- The name with its umlauts and its sharp s written out, in whatever case. -/
def IsExpansion (U : Unicode) (s e : String) : Prop :=
  U.toLowerCase e.toList = replaceLetters german (U.toLowerCase s.toList)

/-- With the umlauts out of sight, behind the first `e` after an a, o or u only others stand. -/
def HasLateDigraphs (U : Unicode) (s : String) : Prop :=
  lateDigraphs isUmlautVowel false (normalizeSearchText U
    (some (String.ofList (replaceLetters blankedUmlauts (U.toLowerCase s.toList))))).toList = true

/-- Another spelling of a place that the key names is part of the name. -/
def AliasIn (U : Unicode) (key s : String) : Prop :=
  ∃ spelling ∈ aliasesOf U key, spelling.toList <:+: (normalizeSearchText U (some s)).toList

theorem settled_german : Settled german := by
  unfold Settled
  decide

theorem settled_blankedUmlauts : Settled blankedUmlauts := by
  unfold Settled
  decide

theorem small_of_isSmall {c : Char} (hc : isSmall c = true) : 97 ≤ c.toNat ∧ c.toNat ≤ 122 := by
  simpa only [isSmall, Bool.and_eq_true, decide_eq_true_eq] using hc

/-- What is written out in small letters is in lower case already. -/
theorem SpellsGerman.lower_eq {g : Char → List Char} (hg : SpellsGerman g) (hlawful : U.Lawful)
    {text : List Char} (htext : ∀ c ∈ text, U.Stable c) :
    U.toLowerCase (text.flatMap g) = text.flatMap g := by
  apply hlawful.lower_fixed
  intro d hd
  obtain ⟨c, hc, hdc⟩ := List.mem_flatMap.mp hd
  by_cases hgerman : c ∈ germanLetters
  · obtain ⟨heq, rfl⟩ | ⟨-, hall⟩ := hg.2 c hgerman
    · rw [heq, List.mem_singleton] at hdc
      rw [hdc]
      exact htext 'ß' hc
    · exact hlawful.small_stable (small_of_isSmall (hall d hdc))
  · rw [hg.1 c hgerman, List.mem_singleton] at hdc
    rw [hdc]
    exact htext c hc

/-- Written out once, nothing is left to write out. -/
theorem longSpelling_again (text : List Char) :
    (longSpelling text).flatMap (rewriteLetter german) = longSpelling text := by
  have hsame : ∀ d ∈ longSpelling text, rewriteLetter german d = [d] := by
    intro d hd
    obtain ⟨c, -, hdc⟩ := List.mem_flatMap.mp hd
    by_cases hc : c ∈ germanLetters
    · obtain ⟨heq, rfl⟩ | ⟨-, hall⟩ := german_spells.2 c hc
      · exact absurd heq (by decide)
      · have hsmall := small_of_isSmall (hall d hdc)
        apply german_spells.1
        intro hmem
        have hlarge : (germanLetters.all fun c => decide (128 ≤ c.toNat)) = true := by
          decide
        have := of_decide_eq_true (List.all_eq_true.mp hlarge d hmem)
        omega
    · rw [german_spells.1 c hc, List.mem_singleton] at hdc
      rw [hdc]
      exact german_spells.1 c hc
  rw [List.flatMap_congr hsame, List.flatMap_singleton']

theorem spelling_eq_nil {g : Char → List Char} (hg : SpellsGerman g) {text : List Char} :
    text.flatMap g = [] ↔ text = [] := by
  constructor
  · intro h
    apply List.eq_nil_iff_forall_not_mem.mpr
    intro c hc
    have hnil : g c = [] := List.flatMap_eq_nil_iff.mp h c hc
    by_cases hgerman : c ∈ germanLetters
    · obtain ⟨heq, -⟩ | ⟨hne, -⟩ := hg.2 c hgerman
      · rw [heq] at hnil
        exact List.cons_ne_nil _ _ hnil
      · exact hne hnil
    · rw [hg.1 c hgerman] at hnil
      exact List.cons_ne_nil _ _ hnil
  · rintro rfl
    rfl

/-- The spellings of a name and of its expansion, from the one form of the name. -/
theorem expansion_spellings (hlawful : U.Lawful) (h : U.LawfulGerman)
    (hexpansion : IsExpansion U s e) :
    normalizeSearchText U (some s) =
        String.ofList (plainSpelling (umlautForm U (U.toLowerCase s.toList))) ∧
      normalizeSearchText U (some e) =
        String.ofList (longSpelling (umlautForm U (U.toLowerCase s.toList))) ∧
      germanKey U s = normalizeSearchText U (some e) ∧
      germanKey U e = normalizeSearchText U (some e) := by
  have hstable : ∀ c ∈ U.toLowerCase s.toList, U.Stable c := hlawful.lower_stable _
  have hlong : U.toLowerCase e.toList = longSpelling (U.toLowerCase s.toList) :=
    hexpansion.trans (replaceLetters_eq settled_german _)
  have hlower : U.toLowerCase (longSpelling (U.toLowerCase s.toList)) =
      longSpelling (U.toLowerCase s.toList) := german_spells.lower_eq hlawful hstable
  refine ⟨?_, ?_, ?_, ?_⟩
  · rw [hlawful.normalizeSearchText_eq, searchForm_eq_plain hlawful h]
  · rw [hlawful.normalizeSearchText_eq, hlong]
    exact congrArg String.ofList (german_spells.searchForm hlawful h _)
  · rw [germanKey, ← hexpansion, hlawful.normalizeSearchText_eq, hlawful.normalizeSearchText_eq,
      String.toList_ofList, hlong, hlower]
  · rw [germanKey, hlawful.normalizeSearchText_eq, hlawful.normalizeSearchText_eq,
      String.toList_ofList, replaceLetters_eq settled_german, hlong, longSpelling_again, hlower]

theorem collapsedKey_expansion (hlawful : U.Lawful) (h : U.LawfulGerman)
    (hexpansion : IsExpansion U s e) : (collapsedKey U e).toList =
      collapsedSpelling false (umlautForm U (U.toLowerCase s.toList)) := by
  obtain ⟨-, hlong, -⟩ := expansion_spellings hlawful h hexpansion
  rw [collapsedKey, hlong, String.toList_ofList, String.toList_ofList, collapseUmlauts_eq]
  rfl

theorem hasLateDigraphs_iff (hlawful : U.Lawful) (h : U.LawfulGerman) : HasLateDigraphs U s ↔
    lateDigraphs isUmlautVowel false
      (blankedSpelling (umlautForm U (U.toLowerCase s.toList))) = true := by
  have hlower := blankedUmlauts_spells.lower_eq hlawful (hlawful.lower_stable s.toList)
  unfold HasLateDigraphs
  rw [replaceLetters_eq settled_blankedUmlauts, hlawful.normalizeSearchText_eq,
    String.toList_ofList, String.toList_ofList, hlower,
    blankedUmlauts_spells.searchForm hlawful h]
  rfl

/-- The spellings that a query for the expansion starts from, and the name. -/
theorem spelling_finds_iff (hlawful : U.Lawful) (h : U.LawfulGerman)
    (hexpansion : IsExpansion U s e) :
    (∃ key, IsSpelling U e key ∧
      key.toList <:+: (normalizeSearchText U (some s)).toList) ↔
    (∀ c ∈ U.toLowerCase s.toList, c ∉ germanLetters) ∨
      'ß' ∉ U.toLowerCase s.toList ∧ HasLateDigraphs U s ∧
        3 ≤ utf16Length (collapsedKey U e).toList := by
  obtain ⟨hplain, hlong, -, hgerman⟩ := expansion_spellings hlawful h hexpansion
  have hcollapsed := collapsedKey_expansion hlawful h hexpansion
  have hne : collapsedKey U e ≠ normalizeSearchText U (some e) ↔
      collapsedSpelling false (umlautForm U (U.toLowerCase s.toList)) ≠
        longSpelling (umlautForm U (U.toLowerCase s.toList)) := by
    rw [hlong, ne_eq, ne_eq, ← hcollapsed, String.ext_iff, String.toList_ofList]
  have hmem (c : Char) (hc : c ∈ germanLetters) :
      c ∈ umlautForm U (U.toLowerCase s.toList) ↔ c ∈ U.toLowerCase s.toList :=
    german_mem_umlautForm hlawful h hc
  have hnone : (∀ c ∈ umlautForm U (U.toLowerCase s.toList), c ∉ germanLetters) ↔
      ∀ c ∈ U.toLowerCase s.toList, c ∉ germanLetters :=
    forall_congr' fun c =>
      ⟨fun hform hc hgerman => hform ((hmem c hgerman).mpr hc) hgerman,
        fun htext hc hgerman => htext ((hmem c hgerman).mp hc) hgerman⟩
  have hsharp := hmem 'ß' (by decide)
  have hfound := @spelling_found_iff (umlautForm U (U.toLowerCase s.toList))
  rw [← hcollapsed, hnone, hsharp, ← hasLateDigraphs_iff hlawful h, hcollapsed, ← hne,
    ← hcollapsed] at hfound
  rw [← hfound, hplain, String.toList_ofList]
  constructor
  · rintro ⟨key, rfl | ⟨-, rfl⟩ | ⟨hdiffers, hlength, rfl⟩, hpart⟩
    · rw [hlong, String.toList_ofList] at hpart
      exact Or.inl hpart
    · rw [hgerman, hlong, String.toList_ofList] at hpart
      exact Or.inl hpart
    · exact Or.inr ⟨hdiffers, hlength, hpart⟩
  · rintro (hpart | ⟨hdiffers, hlength, hpart⟩)
    · refine ⟨normalizeSearchText U (some e), Or.inl rfl, ?_⟩
      rw [hlong, String.toList_ofList]
      exact hpart
    · exact ⟨collapsedKey U e, Or.inr (Or.inr ⟨hdiffers, hlength, rfl⟩), hpart⟩

theorem alias_finds_iff (hgerman : germanKey U e = normalizeSearchText U (some e)) :
    (∃ key, (∃ name, IsSpelling U e name ∧ key ∈ aliasesOf U name) ∧
      key.toList <:+: (normalizeSearchText U (some s)).toList) ↔
    AliasIn U (normalizeSearchText U (some e)) s ∨
      3 ≤ utf16Length (collapsedKey U e).toList ∧ AliasIn U (collapsedKey U e) s := by
  constructor
  · rintro ⟨key, ⟨name, rfl | ⟨-, rfl⟩ | ⟨-, hlength, rfl⟩, hmem⟩, hpart⟩
    · exact Or.inl ⟨key, hmem, hpart⟩
    · exact Or.inl ⟨key, hgerman ▸ hmem, hpart⟩
    · exact Or.inr ⟨hlength, key, hmem, hpart⟩
  · rintro (⟨key, hmem, hpart⟩ | ⟨hlength, key, hmem, hpart⟩)
    · exact ⟨key, ⟨_, Or.inl rfl, hmem⟩, hpart⟩
    · by_cases hsame : collapsedKey U e = normalizeSearchText U (some e)
      · exact ⟨key, ⟨_, Or.inl hsame, hmem⟩, hpart⟩
      · exact ⟨key, ⟨_, Or.inr (Or.inr ⟨hsame, hlength, rfl⟩), hmem⟩, hpart⟩

theorem umlaut_spellings_find (U : Unicode) (hlawful : U.Lawful) (h : U.LawfulGerman)
    (s e : String) (hexpansion : IsExpansion U s e) :
    (Finds U s e ∧ Finds U e s) ↔
    normalizeSearchText U (some s) ≠ "" ∧
      ((∀ c ∈ U.toLowerCase s.toList, c ∉ germanLetters) ∨
        ('ß' ∉ U.toLowerCase s.toList ∧ HasLateDigraphs U s ∧
          3 ≤ utf16Length (collapsedKey U e).toList) ∨
        AliasIn U (normalizeSearchText U (some e)) s ∨
        3 ≤ utf16Length (collapsedKey U e).toList ∧ AliasIn U (collapsedKey U e) s) := by
  obtain ⟨hplain, hlong, hgermanS, hgermanE⟩ := expansion_spellings hlawful h hexpansion
  have hempty : normalizeSearchText U (some e) = "" ↔ normalizeSearchText U (some s) = "" := by
    rw [hplain, hlong, String.ofList_eq_empty_iff, String.ofList_eq_empty_iff]
    exact (spelling_eq_nil german_spells).trans (spelling_eq_nil plainUmlauts_spells).symm
  have hforth (hne : normalizeSearchText U (some s) ≠ "") : Finds U s e := by
    refine ⟨germanKey U s, mem_citySearchKeys.mpr ⟨hne, Or.inl (Or.inr (Or.inl ⟨?_, rfl⟩))⟩, ?_⟩
    · rw [hgermanS]
      exact fun hnil => hne (hempty.mp hnil)
    · exact hgermanS ▸ List.infix_rfl
  have hback : Finds U e s ↔ normalizeSearchText U (some s) ≠ "" ∧
      ((∃ key, IsSpelling U e key ∧
          key.toList <:+: (normalizeSearchText U (some s)).toList) ∨
        ∃ key, (∃ name, IsSpelling U e name ∧ key ∈ aliasesOf U name) ∧
          key.toList <:+: (normalizeSearchText U (some s)).toList) := by
    unfold Finds
    simp only [mem_citySearchKeys, ne_eq, hempty, and_assoc, or_and_right, exists_or,
      exists_and_left]
  rw [hback, spelling_finds_iff hlawful h hexpansion, alias_finds_iff hgermanE]
  constructor
  · rintro ⟨-, hne, hfound⟩
    exact ⟨hne, by rwa [or_assoc] at hfound⟩
  · rintro ⟨hne, hfound⟩
    exact ⟨hforth hne, hne, by rwa [or_assoc]⟩

theorem sample_german : sample.LawfulGerman where
  umlaut_decomposition := List.forall_mem_cons.mpr ⟨rfl, List.forall_mem_cons.mpr
    ⟨rfl, List.forall_mem_cons.mpr ⟨rfl, fun _ h => absurd h List.not_mem_nil⟩⟩⟩
  sharp_decomposition := rfl
  sharp_origin c hc := by
    change 'ß' ∈ (sampleTable.lookup c).getD [c] at hc
    cases hlookup : sampleTable.lookup c with
    | none =>
      rw [hlookup] at hc
      exact (List.mem_singleton.mp hc).symm
    | some letters =>
      obtain ⟨before, after, htable, -⟩ := List.lookup_eq_some_iff.mp hlookup
      have hmem : (c, letters) ∈ sampleTable := by
        rw [htable]
        exact List.mem_append_right _ List.mem_cons_self
      have hall : (sampleTable.all fun entry => decide ('ß' ∉ entry.2)) = true := by
        decide
      rw [hlookup] at hc
      exact absurd hc (of_decide_eq_true (List.all_eq_true.mp hall (c, letters) hmem))
  german_class c hc := by
    have hall : (germanLetters.all fun c => decide (sample.combiningClass c = 0)) = true := by
      decide
    exact of_decide_eq_true (List.all_eq_true.mp hall c hc)
  ascii_class c hc := by
    have hnot : ¬ (c = '\u0306' ∨ c = '\u0308') := by
      rintro (rfl | rfl)
      · exact absurd hc (by decide)
      · exact absurd hc (by decide)
    exact if_neg hnot

theorem umlaut_spellings_munich : Finds sample "München" "Muenchen" ∧
    Finds sample "Muenchen" "München" := by
  have hlate : HasLateDigraphs sample "München" := by
    unfold HasLateDigraphs
    decide
  exact (umlaut_spellings_find sample sample_lawful sample_german "München" "Muenchen"
    (by unfold IsExpansion; decide)).mpr
    ⟨by decide, Or.inr (Or.inl ⟨by decide, hlate, by decide⟩)⟩

theorem aliasesOf_eq_nil {key : String} (h : ∀ group ∈ cityAliasGroups, ∀ name ∈ group,
    normalizeSearchText U (some name) ≠ key) : aliasesOf U key = [] := by
  have hnone : (aliasGroups U).findRev? (key ∈ ·) = none := by
    rw [List.findRev?_eq_find?_reverse, List.find?_eq_none]
    intro names hnames
    obtain ⟨group, hgroup, rfl⟩ := List.mem_map.mp (List.mem_reverse.mp hnames)
    intro hmem
    obtain ⟨name, hname, heq⟩ := List.mem_map.mp (of_decide_eq_true hmem)
    exact h group hgroup name hname heq
  rw [aliasesOf, hnone]
  rfl

/-- A letter of the name leaves something that the key does not have. -/
def leavesOther (U : Unicode) (key : List Char) (c : Char) : Bool :=
  ((latin c).flatMap U.decomposition).any fun d =>
    !isCombiningMark d && !Reports.isSpace d && decide (d ∉ key)

theorem normalizeSearchText_ne {name key : String} (hlawful : U.Lawful)
    (h : (U.toLowerCase name.toList).any (leavesOther U key.toList) = true) :
    normalizeSearchText U (some name) ≠ key := by
  rintro rfl
  obtain ⟨c, hc, hleaves⟩ := List.any_eq_true.mp h
  obtain ⟨d, hd, hother⟩ := List.any_eq_true.mp hleaves
  simp only [Bool.and_eq_true, Bool.not_eq_true', decide_eq_true_eq] at hother
  obtain ⟨⟨hmark, hspace⟩, hnot⟩ := hother
  obtain ⟨b, hb, hdb⟩ := List.mem_flatMap.mp hd
  apply hnot
  rw [hlawful.normalizeSearchText_eq, String.toList_ofList, searchForm, mem_squeeze hspace]
  exact mem_bare.mpr ⟨⟨c, hc, b, hb, hdb⟩, hmark⟩

theorem leavesOther_of_letters {key letters : List Char}
    (h : (U.toLowerCase letters).any (leavesOther U key) = true) :
    (U.toLowerCase (String.ofList letters).toList).any (leavesOther U key) = true := by
  rwa [String.toList_ofList]

-- Each name is spelled out first: to decode it again is what a decision on the table would do.
theorem groups_leave_other : ∀ group ∈ cityAliasGroups, ∀ name ∈ group,
    (sample.toLowerCase name.toList).any
      (leavesOther sample ['g', 'i', 'e', 's', 's', 'e', 'n']) = true := by
  unfold cityAliasGroups
  simp only [List.forall_mem_cons]
  repeat' apply And.intro
  all_goals first
    | exact leavesOther_of_letters (by decide)
    | exact fun _ h => absurd h List.not_mem_nil

/-- A query with two s does not reach the name with the sharp s. -/
theorem sharp_s_unfound : sample.Lawful ∧ sample.LawfulGerman ∧
    IsExpansion sample "Gießen" "Giessen" ∧ ¬ Finds sample "Giessen" "Gießen" := by
  refine ⟨sample_lawful, sample_german, by unfold IsExpansion; decide, ?_⟩
  have hquery : normalizeSearchText sample (some "Giessen") = "giessen" := by decide
  have hgerman : germanKey sample "Giessen" = "giessen" := by decide
  have hcollapsed : collapsedKey sample "Giessen" = "giessen" := by decide
  have hname : normalizeSearchText sample (some "Gießen") = "gießen" := by decide
  have hspelling (key : String) (hkey : IsSpelling sample "Giessen" key) : key = "giessen" := by
    obtain rfl | ⟨-, rfl⟩ | ⟨-, -, rfl⟩ := hkey
    · exact hquery
    · exact hgerman
    · exact hcollapsed
  have haliases : aliasesOf sample "giessen" = [] := by
    apply aliasesOf_eq_nil
    intro group hgroup name hmem
    apply normalizeSearchText_ne sample_lawful
    have hletters : "giessen".toList = ['g', 'i', 'e', 's', 's', 'e', 'n'] := String.toList_ofList
    rw [hletters]
    exact groups_leave_other group hgroup name hmem
  rintro ⟨key, hkey, hpart⟩
  obtain ⟨-, hkey | ⟨name, hspelled, halias⟩⟩ := mem_citySearchKeys.mp hkey
  · rw [hspelling key hkey, hname] at hpart
    have hlength := hpart.length_le
    exact absurd hlength (by decide)
  · rw [hspelling name hspelled, haliases] at halias
    exact absurd halias List.not_mem_nil

end Expansion

end CarSalePro.Search
