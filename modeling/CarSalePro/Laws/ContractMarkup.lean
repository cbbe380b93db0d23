import CarSalePro.Legal.Emphasis

namespace CarSalePro.Legal

section Grammar

/-- The elements the renderer writes. -/
def elementNames : List String := ["h1", "h2", "h3", "p", "ul", "li", "strong", "em"]

/-- Well-formed markup: plain characters, line breaks, and elements that are opened and closed
around such markup. A tag has no attributes. -/
inductive Markup : List Char → Prop where
  | nil : Markup []
  | plain (c : Char) (rest : List Char) (less : c ≠ '<') (greater : c ≠ '>') (quote : c ≠ '"')
      (after : Markup rest) : Markup (c :: rest)
  | lineBreak (rest : List Char) (after : Markup rest) : Markup ("<br />".toList ++ rest)
  | element (name : String) (content rest : List Char) (known : name ∈ elementNames)
      (inside : Markup content) (after : Markup rest) : Markup (element name content ++ rest)

variable {text rest : List Char}

theorem Markup.append (h : Markup text) (hrest : Markup rest) : Markup (text ++ rest) := by
  induction h with
  | nil => exact hrest
  | plain c text hless hgreater hquote _ ih => exact .plain c _ hless hgreater hquote ih
  | lineBreak text _ ih =>
    rw [List.append_assoc]
    exact .lineBreak _ ih
  | element name content text hknown hinside _ _ ih =>
    rw [List.append_assoc]
    exact .element name content _ hknown hinside ih

theorem Markup.wrap {name : String} (h : Markup text) (hname : name ∈ elementNames) :
    Markup (Legal.element name text) := by
  have helement := Markup.element name text [] hname h .nil
  rwa [List.append_nil] at helement

theorem Markup.tail {c : Char} (hc : c ≠ '<') (h : Markup (c :: text)) : Markup text := by
  cases h with
  | plain _ _ _ _ _ after => exact after
  | lineBreak rest _ => exact absurd rfl hc
  | element name content rest _ _ _ => exact absurd rfl hc

end Grammar

section Inline

variable {text rest run : List Char}

/-- A character that is not part of a tag. -/
def Harmless (c : Char) : Prop := c ≠ '<' ∧ c ≠ '>' ∧ c ≠ '"'

theorem escape_harmless (c : Char) : ∀ d ∈ escape c, Harmless d := by
  intro d hd
  unfold escape at hd
  have hliteral (text : String) (h : text.toList.all fun c => c ≠ '<' && c ≠ '>' && c ≠ '"')
      (hd : d ∈ text.toList) : Harmless d := by
    have hall := List.all_eq_true.mp h d hd
    simp only [Bool.and_eq_true, decide_eq_true_eq] at hall
    exact ⟨hall.1.1, hall.1.2, hall.2⟩
  split at hd
  next => exact hliteral "&amp;" (by decide +kernel) hd
  next =>
    split at hd
    next => exact hliteral "&lt;" (by decide +kernel) hd
    next hless =>
      split at hd
      next => exact hliteral "&gt;" (by decide +kernel) hd
      next hgreater =>
        split at hd
        next => exact hliteral "&quot;" (by decide +kernel) hd
        next hquote =>
          rw [List.mem_singleton.mp hd]
          exact ⟨hless, hgreater, hquote⟩

theorem esc_harmless (text : List Char) : ∀ c ∈ esc text, Harmless c := by
  intro c hc
  obtain ⟨d, -, hd⟩ := List.mem_flatMap.mp hc
  exact escape_harmless d c hd

theorem Markup.ofHarmless (h : ∀ c ∈ text, Harmless c) : Markup text := by
  induction text with
  | nil => exact .nil
  | cons c text ih =>
    have hc := h c List.mem_cons_self
    exact .plain c text hc.1 hc.2.1 hc.2.2 (ih fun d hd => h d (List.mem_cons_of_mem c hd))

/-- What the bold pass makes: harmless characters, and bold runs without a star. -/
inductive Emboldened : List Char → Prop where
  | nil : Emboldened []
  | plain (c : Char) (rest : List Char) (harmless : Harmless c) (after : Emboldened rest) :
      Emboldened (c :: rest)
  | strong (run rest : List Char) (harmless : ∀ c ∈ run, Harmless c) (starFree : '*' ∉ run)
      (after : Emboldened rest) : Emboldened (element "strong" run ++ rest)

theorem emboldened_bold (n : Nat) (hn : text.length ≤ n) (h : ∀ c ∈ text, Harmless c) :
    Emboldened (replaceAll boldAt (element "strong") text) := by
  induction n generalizing text with
  | zero =>
    rw [List.length_eq_zero_iff.mp (Nat.le_zero.mp hn)]
    exact .nil
  | succ n ih =>
    cases text with
    | nil => exact .nil
    | cons c text =>
      cases hfind : boldAt (c :: text) with
      | none =>
        have hlength : text.length ≤ n := by simpa using hn
        have htail := ih hlength fun d hd => h d (List.mem_cons_of_mem c hd)
        rw [replaceAll_none hfind]
        exact .plain c _ (h c List.mem_cons_self) htail
      | some found =>
        obtain ⟨run, length⟩ := found
        obtain ⟨rest, heq, hrun, hne, -⟩ := boldAt_some hfind
        rw [heq] at h hn ⊢
        rw [replaceBold_run hrun hne]
        have hrest : rest.length ≤ n := by
          simp only [List.length_cons, List.length_append] at hn
          omega
        refine .strong run _ (fun d hd => h d ?_) hrun (ih hrest fun d hd => h d ?_) <;> simp [hd]

theorem star_element (hrun : '*' ∉ run) : '*' ∉ element "strong" run := by
  simp [element, hrun]

/-- Up to its first star such a text is markup, and behind it comes such a text. -/
theorem Emboldened.split (h : Emboldened text) : ∃ run rest, text = run ++ rest ∧ '*' ∉ run ∧
    Markup run ∧ Emboldened rest ∧ (rest = [] ∨ ∃ tail, rest = '*' :: tail ∧ Emboldened tail) := by
  induction h with
  | nil => exact ⟨[], [], rfl, List.not_mem_nil, .nil, .nil, .inl rfl⟩
  | plain c text hc htext ih =>
    by_cases hstar : c = '*'
    · subst hstar
      exact ⟨[], '*' :: text, rfl, List.not_mem_nil, .nil, .plain _ text hc htext,
        .inr ⟨text, rfl, htext⟩⟩
    · obtain ⟨run, rest, rfl, hrun, hmarkup, hrest, hstars⟩ := ih
      exact ⟨c :: run, rest, rfl, List.not_mem_cons_of_ne_of_not_mem (Ne.symm hstar) hrun,
        .plain c run hc.1 hc.2.1 hc.2.2 hmarkup, hrest, hstars⟩
  | strong bold text hbold hstarFree _ ih =>
    obtain ⟨run, rest, rfl, hrun, hmarkup, hrest, hstars⟩ := ih
    refine ⟨element "strong" bold ++ run, rest, by simp, ?_, ?_, hrest, hstars⟩
    · rw [List.mem_append]
      exact not_or.mpr ⟨star_element hstarFree, hrun⟩
    · exact ((Markup.ofHarmless hbold).wrap (by decide)).append hmarkup

/-- The italic pass puts its tags around whole elements. -/
theorem markup_italic (n : Nat) (hn : text.length ≤ n) (h : Emboldened text) :
    Markup (replaceAll italicAt (element "em") text) := by
  induction n generalizing text with
  | zero =>
    rw [List.length_eq_zero_iff.mp (Nat.le_zero.mp hn)]
    exact .nil
  | succ n ih =>
    obtain ⟨before, rest, rfl, hbefore, hmarkup, -, hstars⟩ := h.split
    rw [replaceAll_plain italicAt_plain hbefore]
    refine hmarkup.append ?_
    rcases hstars with rfl | ⟨tail, rfl, htail⟩
    · exact .nil
    · have hlength : tail.length ≤ n := by
        simp only [List.length_append, List.length_cons] at hn
        omega
      cases hfind : italicAt ('*' :: tail) with
      | none =>
        rw [replaceAll_none hfind]
        exact .plain '*' _ (by decide) (by decide) (by decide) (ih hlength htail)
      | some found =>
        obtain ⟨run, length⟩ := found
        obtain ⟨behind, heq, hrun, hne, -⟩ := italicAt_some hfind
        obtain ⟨run', rest', htail', hrun', hinside, -, hstars'⟩ := htail.split
        have hsame : run' = run ∧ rest' = '*' :: behind := by
          have hcons := (List.cons.inj heq).2
          have hrest' : rest' = [] ∨ ∃ t, rest' = '*' :: t :=
            hstars'.imp_right fun ⟨t, ht, _⟩ => ⟨t, ht⟩
          have hspan := starFreeRun_eq hrun' hrest'
          rw [← htail', hcons, starFreeRun_eq hrun (.inr ⟨_, rfl⟩)] at hspan
          exact ⟨(Prod.mk.inj hspan).1.symm, (Prod.mk.inj hspan).2.symm⟩
        obtain ⟨rfl, rfl⟩ := hsame
        have hbehind : Emboldened behind := by
          rcases hstars' with hnil | ⟨t, ht, hemboldened⟩
          · cases hnil
          · exact (List.cons.inj ht).2 ▸ hemboldened
        rw [heq, replaceItalic_run hrun hne]
        refine (hinside.wrap (by decide)).append (ih ?_ hbehind)
        rw [htail'] at hlength
        simp only [List.length_append, List.length_cons] at hlength
        omega

theorem markup_inline (text : List Char) : Markup (inlineFormat text) :=
  markup_italic _ (le_refl _) (emboldened_bold _ (le_refl _) (esc_harmless text))

end Inline

section Pages

variable {pieces items : List (List Char)} {page : Page} {piece : List Char}

/-- Pieces on lines of their own. -/
def onLines (pieces : List (List Char)) : List Char := pieces.flatMap ('\n' :: ·)

theorem joined_eq (pieces : List (List Char)) :
    ['\n'].intercalate pieces = (onLines pieces).tail := by
  cases pieces with
  | nil => rfl
  | cons piece pieces =>
    show _ = piece ++ onLines pieces
    induction pieces generalizing piece with
    | nil => simp [onLines]
    | cons next pieces ih =>
      rw [List.intercalate_cons_cons, ih]
      simp [onLines]

/-- A page on which every list is closed, or one that is in a list. -/
def Page.Sound (page : Page) : Prop :=
  if page.listOpen then
    ∃ before items, page.out = before ++ "<ul>".toList :: items ∧ Markup (onLines before) ∧
      Markup (onLines items)
  else Markup (onLines page.out)

theorem markup_onLines_snoc (h : Markup (onLines pieces)) (hpiece : Markup piece) :
    Markup (onLines (pieces ++ [piece])) := by
  have heq : onLines (pieces ++ [piece]) = onLines pieces ++ '\n' :: piece := by
    simp [onLines]
  rw [heq]
  exact h.append (.plain '\n' piece (by decide) (by decide) (by decide) hpiece)

theorem Page.Sound.push (h : page.Sound) (hpiece : Markup piece) : (page.push piece).Sound := by
  unfold Page.Sound at h ⊢
  show if page.listOpen then _ else _
  split
  next hopen =>
    rw [if_pos hopen] at h
    obtain ⟨before, items, hout, hbefore, hitems⟩ := h
    refine ⟨before, items ++ [piece], ?_, hbefore, markup_onLines_snoc hitems hpiece⟩
    simp [Page.push, hout]
  next hclosed =>
    rw [if_neg hclosed] at h
    exact markup_onLines_snoc h hpiece

theorem markup_lines (lines : List (List Char)) :
    Markup ("<br />".toList.intercalate (lines.map inlineFormat)) := by
  induction lines with
  | nil => exact .nil
  | cons first lines ih =>
    cases lines with
    | nil =>
      have hfirst := markup_inline first
      simpa using hfirst
    | cons second lines =>
      rw [List.map_cons, List.map_cons, List.intercalate_cons_cons, List.append_assoc]
      exact (markup_inline first).append (.lineBreak _ ih)

theorem Page.Sound.flushParagraph (h : page.Sound) : page.flushParagraph.Sound := by
  unfold Page.flushParagraph
  split
  next => exact h
  next => exact h.push ((markup_lines page.paragraph).wrap (by decide))

theorem Page.Sound.closeList (h : page.Sound) :
    page.closeList.Sound ∧ page.closeList.listOpen = false := by
  unfold Page.closeList
  split
  next hopen =>
    unfold Page.Sound at h
    rw [if_pos hopen] at h
    obtain ⟨before, items, hout, hbefore, hitems⟩ := h
    refine ⟨?_, rfl⟩
    show Markup (onLines (page.out ++ ["</ul>".toList]))
    have heq : onLines (page.out ++ ["</ul>".toList]) =
        onLines before ++ '\n' :: element "ul" (onLines items ++ ['\n']) := by
      rw [hout]
      simp [onLines, element]
    have hinside : Markup (onLines items ++ ['\n']) :=
      hitems.append (.plain '\n' [] (by decide) (by decide) (by decide) .nil)
    rw [heq]
    exact hbefore.append (.plain '\n' _ (by decide) (by decide) (by decide)
      (hinside.wrap (by decide)))
  next hclosed => exact ⟨h, by simpa using hclosed⟩

theorem Page.Sound.openList (h : page.Sound) : page.openList.Sound := by
  unfold Page.openList
  split
  next => exact h
  next hclosed =>
    unfold Page.Sound at h
    rw [if_neg hclosed] at h
    exact ⟨page.out, [], rfl, h, .nil⟩

/-- The heading levels there are. -/
def Line.WellFormed : Line → Prop
  | .heading level _ => 1 ≤ level ∧ level ≤ 3
  | _ => True

theorem classify_wellFormed (raw : List Char) : (classify raw).WellFormed := by
  unfold classify
  dsimp only
  split
  next => trivial
  next =>
    split
    next level text heq =>
      unfold headingAt at heq
      dsimp only at heq
      split at heq
      next hlevel =>
        obtain ⟨rest, -, hpair⟩ := Option.map_eq_some_iff.mp heq
        cases hpair
        exact hlevel
      next => cases heq
    next => split <;> trivial

theorem Page.Sound.line {l : Line} (h : page.Sound) (hl : l.WellFormed) : (page.line l).Sound := by
  cases l with
  | blank => exact h.flushParagraph.closeList.1
  | heading level text =>
    have hname : "h" ++ toString level ∈ elementNames := by
      obtain ⟨hlow, hhigh⟩ := hl
      have hlevel : level = 1 ∨ level = 2 ∨ level = 3 := by omega
      rcases hlevel with rfl | rfl | rfl <;> decide
    exact h.flushParagraph.closeList.1.push ((markup_inline text).wrap hname)
  | item text =>
    exact h.flushParagraph.openList.push ((markup_inline text).wrap (by decide))
  | text text => exact h

theorem Page.Sound.lines {lines : List Line} (h : page.Sound) (hl : ∀ l ∈ lines, l.WellFormed) :
    (lines.foldl Page.line page).Sound := by
  induction lines generalizing page with
  | nil => exact h
  | cons l lines ih =>
    exact ih (h.line (hl l List.mem_cons_self)) fun l' hl' => hl l' (List.mem_cons_of_mem l hl')

end Pages

/-- Whatever the text, what is rendered of it is well-formed markup. -/
theorem markdownToHtml_markup (md : List Char) : Markup (markdownToHtml md) := by
  have hstart : Page.Sound ⟨[], false, []⟩ := .nil
  have hlines : ∀ l ∈ linesOf md, l.WellFormed := by
    intro l hl
    obtain ⟨raw, -, rfl⟩ := List.mem_map.mp hl
    exact classify_wellFormed raw
  obtain ⟨hend, hclosed⟩ := (hstart.lines hlines).flushParagraph.closeList
  unfold Page.Sound at hend
  rw [if_neg (by simp [hclosed])] at hend
  unfold markdownToHtml
  rw [joined_eq]
  show Markup (onLines (htmlPieces (linesOf md))).tail
  cases hpieces : htmlPieces (linesOf md) with
  | nil => exact .nil
  | cons piece pieces =>
    have htext : onLines (htmlPieces (linesOf md)) = '\n' :: (piece ++ onLines pieces) := by
      rw [hpieces]
      simp [onLines]
    have hall : Markup (onLines (htmlPieces (linesOf md))) := hend
    rw [htext] at hall
    exact hall.tail (by decide)

end CarSalePro.Legal
