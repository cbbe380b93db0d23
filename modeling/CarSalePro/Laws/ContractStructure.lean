import CarSalePro.Laws.ContractEmphasis
import CarSalePro.Laws.ContractMarkup

namespace CarSalePro.Legal

open Search (trim)

section Showing

/-- A block, written as markup line by line. -/
def MarkdownBlock.toHtml : MarkdownBlock → List (List Char)
  | .heading level spans => [element ("h" ++ toString level) (spansToHtml spans)]
  | .paragraph lines => [element "p" ("<br />".toList.intercalate (lines.map spansToHtml))]
  | .list items =>
    "<ul>".toList :: items.map (fun spans => element "li" (spansToHtml spans)) ++ ["</ul>".toList]

def blocksToHtml (blocks : List MarkdownBlock) : List Char :=
  ['\n'].intercalate (blocks.flatMap MarkdownBlock.toHtml)

/-- The contract on screen is the one that is printed: its markup is that of the blocks. -/
def SameContract (md : List Char) : Prop :=
  markdownToHtml md = blocksToHtml (parseMarkdownBlocks md)

/-- The text of a line that may hold emphasis. -/
def Line.inlineText : Line → List Char
  | .blank => []
  | .heading _ content | .item content | .text content => content

/-- No line of text follows an item of a list that is still open. -/
def textLeavesList (listOpen : Bool) : List Line → Bool
  | [] => true
  | .text _ :: lines => !listOpen && textLeavesList false lines
  | .item _ :: lines => textLeavesList true lines
  | _ :: lines => textLeavesList false lines

/-- The sources both renderers read alike. -/
def readAlike (md : List Char) : Bool :=
  textLeavesList false (linesOf md) &&
    (linesOf md).all fun l => unambiguous 0 (starRuns l.inlineText)

end Showing

section Pieces

variable {format : List Char → List Char} {leaves listOpen : Bool} {paragraph : List (List Char)}
  {lines : List Line} {page : Page} {draft : Draft}

def closing (listOpen : Bool) : List (List Char) := if listOpen then ["</ul>".toList] else []

def opening (listOpen : Bool) : List (List Char) := if listOpen then [] else ["<ul>".toList]

def paragraphPieces (paragraph : List (List Char)) : List (List Char) :=
  if paragraph = [] then [] else [element "p" ("<br />".toList.intercalate paragraph)]

/-- What is written of the lines, in or behind an open list and after the lines of a paragraph.
The two renderers differ in how they format a text, and in whether a text leaves the list. -/
def pieces (format : List Char → List Char) (leaves : Bool) (listOpen : Bool)
    (paragraph : List (List Char)) : List Line → List (List Char)
  | [] => paragraphPieces (paragraph.map format) ++ closing listOpen
  | .blank :: lines =>
    paragraphPieces (paragraph.map format) ++
      (closing listOpen ++ pieces format leaves false [] lines)
  | .heading level text :: lines =>
    paragraphPieces (paragraph.map format) ++ (closing listOpen ++
      element ("h" ++ toString level) (format text) :: pieces format leaves false [] lines)
  | .item text :: lines =>
    paragraphPieces (paragraph.map format) ++ (opening listOpen ++
      element "li" (format text) :: pieces format leaves true [] lines)
  | .text text :: lines =>
    if leaves && listOpen then
      "</ul>".toList :: pieces format leaves false (paragraph ++ [text]) lines
    else pieces format leaves listOpen (paragraph ++ [text]) lines

theorem out_flushParagraph (page : Page) : page.flushParagraph =
    ⟨page.out ++ paragraphPieces (page.paragraph.map inlineFormat), page.listOpen, []⟩ := by
  obtain ⟨out, listOpen, paragraph⟩ := page
  cases paragraph with
  | nil => simp [Page.flushParagraph, paragraphPieces]
  | cons text paragraph => simp [Page.flushParagraph, paragraphPieces, Page.push]

theorem out_closeList (page : Page) :
    page.closeList = ⟨page.out ++ closing page.listOpen, false, page.paragraph⟩ := by
  obtain ⟨out, listOpen, paragraph⟩ := page
  cases listOpen <;> simp [Page.closeList, closing, Page.push]

theorem out_openList (page : Page) :
    page.openList = ⟨page.out ++ opening page.listOpen, true, page.paragraph⟩ := by
  obtain ⟨out, listOpen, paragraph⟩ := page
  cases listOpen <;> simp [Page.openList, opening, Page.push]

/-- What the first renderer writes. -/
theorem htmlPieces_eq (lines : List Line) (page : Page) :
    (lines.foldl Page.line page).flushParagraph.closeList.out =
      page.out ++ pieces inlineFormat false page.listOpen page.paragraph lines := by
  induction lines generalizing page with
  | nil => simp [out_flushParagraph, out_closeList, pieces]
  | cons l lines ih =>
    rw [List.foldl_cons, ih]
    cases l with
    | blank => simp [Page.line, out_flushParagraph, out_closeList, pieces]
    | heading level text =>
      simp [Page.line, Page.push, out_flushParagraph, out_closeList, pieces]
    | item text => simp [Page.line, Page.push, out_flushParagraph, out_openList, pieces]
    | text text => simp [Page.line, pieces]

/-- A text, as the second renderer shows it. -/
def showText (text : List Char) : List Char := spansToHtml (parseInline text)

/-- The blocks of a draft, and what there is of its list. -/
def Draft.written (draft : Draft) : List (List Char) :=
  draft.blocks.flatMap MarkdownBlock.toHtml ++
    if draft.list = [] then []
    else "<ul>".toList :: draft.list.map fun spans => element "li" (spansToHtml spans)

/-- No draft has both a paragraph and a list. -/
def Draft.OneOpen (draft : Draft) : Prop := draft.paragraph = [] ∨ draft.list = []

theorem written_flushParagraph (draft : Draft) (h : draft.OneOpen) : draft.flushParagraph.written =
    draft.written ++ paragraphPieces (draft.paragraph.map spansToHtml) := by
  obtain ⟨blocks, paragraph, list⟩ := draft
  cases paragraph with
  | nil => simp [Draft.flushParagraph, paragraphPieces]
  | cons first paragraph =>
    have hlist : list = [] := h.resolve_left (List.cons_ne_nil _ _)
    simp [Draft.flushParagraph, paragraphPieces, Draft.written, hlist, MarkdownBlock.toHtml]

theorem written_flushList (draft : Draft) : draft.flushList.written =
    draft.written ++ closing (draft.list ≠ []) := by
  obtain ⟨blocks, paragraph, list⟩ := draft
  cases list with
  | nil => simp [Draft.flushList, closing, Draft.written]
  | cons first list => simp [Draft.flushList, closing, Draft.written, MarkdownBlock.toHtml]

theorem paragraph_flushParagraph (draft : Draft) : draft.flushParagraph.paragraph = [] ∧
    draft.flushParagraph.list = draft.list := by
  obtain ⟨blocks, paragraph, list⟩ := draft
  cases paragraph <;> exact ⟨rfl, rfl⟩

theorem list_flushList (draft : Draft) : draft.flushList.list = [] ∧
    draft.flushList.paragraph = draft.paragraph := by
  obtain ⟨blocks, paragraph, list⟩ := draft
  cases list <;> exact ⟨rfl, rfl⟩

theorem written_item (draft : Draft) (spans : List InlineSpan) :
    Draft.written { draft with list := draft.list ++ [spans] } =
      draft.written ++ (opening (draft.list ≠ []) ++ [element "li" (spansToHtml spans)]) := by
  obtain ⟨blocks, paragraph, list⟩ := draft
  cases list <;> simp [Draft.written, opening]

/-- What the blocks of the second renderer are written as. -/
theorem blockPieces_eq (lines : List Line) (draft : Draft) (paragraph : List (List Char))
    (hparagraph : draft.paragraph = paragraph.map parseInline) (hone : draft.OneOpen) :
    (lines.foldl Draft.line draft).flushParagraph.flushList.blocks.flatMap MarkdownBlock.toHtml =
      draft.written ++ pieces showText true (draft.list ≠ []) paragraph lines := by
  have hflushed (d : Draft) (h : d.OneOpen) : d.flushParagraph.flushList.written = d.written ++
      (paragraphPieces (d.paragraph.map spansToHtml) ++ closing (d.list ≠ [])) := by
    rw [written_flushList, written_flushParagraph d h, (paragraph_flushParagraph d).2,
      List.append_assoc]
  have hblocks (d : Draft) (h : d.list = []) :
      d.written = d.blocks.flatMap MarkdownBlock.toHtml := by
    simp [Draft.written, h]
  induction lines generalizing draft paragraph with
  | nil =>
    have hshown : paragraph.map showText = draft.paragraph.map spansToHtml := by
      rw [hparagraph, List.map_map]
      rfl
    rw [List.foldl_nil, ← hblocks _ (list_flushList _).1, hflushed draft hone, pieces, hshown]
  | cons l lines ih =>
    have hshown : paragraph.map showText = draft.paragraph.map spansToHtml := by
      rw [hparagraph, List.map_map]
      rfl
    have hlist := (list_flushList draft.flushParagraph).1
    have hnone := (list_flushList draft.flushParagraph).2.trans (paragraph_flushParagraph draft).1
    rw [List.foldl_cons]
    cases l with
    | blank =>
      have hrest := ih draft.flushParagraph.flushList [] hnone (.inl hnone)
      rw [Draft.line, hrest, hflushed draft hone, pieces, hshown, hlist]
      simp
    | heading level text =>
      let next : Draft := { draft.flushParagraph.flushList with
        blocks := draft.flushParagraph.flushList.blocks ++ [.heading level (parseInline text)] }
      have hrest := ih next [] hnone (.inl hnone)
      have hwritten : next.written = draft.flushParagraph.flushList.written ++
          [element ("h" ++ toString level) (showText text)] := by
        rw [hblocks next hlist, hblocks _ hlist]
        simp [next, MarkdownBlock.toHtml, showText]
      have hclosed : next.list = [] := hlist
      have hline : draft.line (.heading level text) = next := rfl
      rw [hline, hrest, hwritten, hflushed draft hone, pieces, hshown, hclosed]
      simp
    | item text =>
      let next : Draft := { draft.flushParagraph with
        list := draft.flushParagraph.list ++ [parseInline text] }
      have hfree := (paragraph_flushParagraph draft).1
      have hrest := ih next [] hfree (.inl hfree)
      have hopen : next.list ≠ [] := by simp [next]
      have hline : draft.line (.item text) = next := rfl
      rw [hline, hrest, written_item draft.flushParagraph, written_flushParagraph draft hone,
        pieces, hshown, (paragraph_flushParagraph draft).2]
      simp [hopen, showText]
    | text text =>
      let next : Draft := { draft.flushList with
        paragraph := draft.flushList.paragraph ++ [parseInline text] }
      have hgrown : next.paragraph = (paragraph ++ [text]).map parseInline := by
        simp [next, (list_flushList draft).2, hparagraph]
      have hclosed : next.list = [] := (list_flushList draft).1
      have hrest := ih next (paragraph ++ [text]) hgrown (.inr hclosed)
      have hwritten : next.written = draft.written ++ closing (draft.list ≠ []) := by
        rw [← written_flushList]
        rfl
      have hline : draft.line (.text text) = next := rfl
      rw [hline, hrest, hwritten, hclosed, pieces]
      by_cases hopen : draft.list = [] <;> simp [hopen, closing]

end Pieces

section Agreement

variable {paragraph : List (List Char)} {lines : List Line} {listOpen : Bool}

/-- The text of a line is on one line. -/
def Line.Flat (l : Line) : Prop := '\n' ∉ l.inlineText

/-- Paragraphs are shown alike when all their lines are. -/
theorem paragraph_eq_iff (h : ∀ text ∈ paragraph, '\n' ∉ text) :
    "<br />".toList.intercalate (paragraph.map inlineFormat) =
        "<br />".toList.intercalate (paragraph.map showText) ↔
      ∀ text ∈ paragraph, inlineFormat text = showText text := by
  induction paragraph with
  | nil => simp
  | cons first paragraph ih =>
    have hfirst := h first List.mem_cons_self
    have hrest := ih fun text htext => h text (List.mem_cons_of_mem first htext)
    cases paragraph with
    | nil => simp
    | cons second paragraph =>
      rw [List.forall_mem_cons, ← hrest]
      simp only [List.map_cons, List.intercalate_cons_cons, List.append_assoc]
      constructor
      · intro heq
        obtain ⟨hsame, hmore⟩ :=
          (tagged_inlineFormat hfirst).cancel_break (tagged_spans hfirst) heq
        have hbehind : "r />".toList ++ _ = "r />".toList ++ _ := hmore
        exact ⟨hsame, List.append_cancel_left hbehind⟩
      · rintro ⟨hsame, hmore⟩
        rw [hsame, hmore]

theorem element_eq_iff {name : String} {content content' : List Char} :
    element name content = element name content' ↔ content = content' := by
  simp [element]

theorem showText_iff (text : List Char) :
    inlineFormat text = showText text ↔ unambiguous 0 (starRuns text) := inlineFormat_eq_iff text

/-- What is written of a paragraph, and what behind it. -/
theorem paragraphPieces_eq_iff {more more' : List (List Char)}
    (h : ∀ text ∈ paragraph, '\n' ∉ text) :
    paragraphPieces (paragraph.map inlineFormat) ++ more =
        paragraphPieces (paragraph.map showText) ++ more' ↔
      (∀ text ∈ paragraph, unambiguous 0 (starRuns text)) ∧ more = more' := by
  have halike := paragraph_eq_iff h
  simp only [showText_iff] at halike
  cases paragraph with
  | nil => simp [paragraphPieces]
  | cons first paragraph =>
    rw [← halike]
    simp [paragraphPieces, element_eq_iff]

/-- A paragraph that is begun is written before anything else. -/
theorem pieces_begin (format : List Char → List Char) (listOpen : Bool)
    (paragraph : List (List Char)) (lines : List Line) (h : paragraph ≠ []) :
    ∃ content more, pieces format false listOpen paragraph lines = element "p" content :: more := by
  have hpieces (paragraph : List (List Char)) (h : paragraph ≠ []) (more : List (List Char)) :
      ∃ content more', paragraphPieces (paragraph.map format) ++ more =
        element "p" content :: more' := by
    refine ⟨"<br />".toList.intercalate (paragraph.map format), more, ?_⟩
    rw [paragraphPieces, if_neg (by simpa using h)]
    rfl
  induction lines generalizing paragraph with
  | nil => exact hpieces paragraph h _
  | cons l lines ih =>
    cases l with
    | blank => exact hpieces paragraph h _
    | heading level text => exact hpieces paragraph h _
    | item text => exact hpieces paragraph h _
    | text text => exact ih (paragraph ++ [text]) (by simp)

/-- Both renderers write the same, exactly when no text follows an item and all emphasis is
unambiguous. -/
theorem pieces_eq_iff (listOpen : Bool) (paragraph : List (List Char))
    (hparagraph : ∀ text ∈ paragraph, '\n' ∉ text) (hlines : ∀ l ∈ lines, l.Flat) :
    pieces inlineFormat false listOpen paragraph lines =
        pieces showText true listOpen paragraph lines ↔
      (∀ text ∈ paragraph, unambiguous 0 (starRuns text)) ∧ textLeavesList listOpen lines ∧
        ∀ l ∈ lines, unambiguous 0 (starRuns l.inlineText) := by
  have hempty : unambiguous 0 (starRuns []) = true := rfl
  induction lines generalizing listOpen paragraph with
  | nil => simp [pieces, paragraphPieces_eq_iff hparagraph, textLeavesList]
  | cons l lines ih =>
    have hl := hlines l List.mem_cons_self
    have hrest : ∀ l ∈ lines, l.Flat := fun l' hl' => hlines l' (List.mem_cons_of_mem l hl')
    rw [List.forall_mem_cons]
    cases l with
    | blank =>
      have hbehind := ih false [] (by simp) hrest
      simp only [pieces, paragraphPieces_eq_iff hparagraph, List.append_right_inj, hbehind,
        textLeavesList, Line.inlineText, hempty]
      simp
    | heading level text =>
      have hbehind := ih false [] (by simp) hrest
      simp only [pieces, paragraphPieces_eq_iff hparagraph, List.append_right_inj, hbehind,
        textLeavesList, Line.inlineText, List.cons.injEq, element_eq_iff, showText_iff]
      simp only [List.not_mem_nil, false_imp_iff, implies_true, true_and]
      tauto
    | item text =>
      have hbehind := ih true [] (by simp) hrest
      simp only [pieces, paragraphPieces_eq_iff hparagraph, List.append_right_inj, hbehind,
        textLeavesList, Line.inlineText, List.cons.injEq, element_eq_iff, showText_iff]
      simp only [List.not_mem_nil, false_imp_iff, implies_true, true_and]
      tauto
    | text text =>
      have hgrown : ∀ text' ∈ paragraph ++ [text], '\n' ∉ text' := by
        intro text' htext
        rcases List.mem_append.mp htext with htext | htext
        · exact hparagraph text' htext
        · rw [List.mem_singleton.mp htext]
          exact hl
      cases listOpen with
      | true =>
        have hsome : paragraph ++ [text] ≠ [] := by simp
        obtain ⟨content, more, hbegin⟩ :=
          pieces_begin inlineFormat true (paragraph ++ [text]) lines hsome
        refine iff_of_false ?_ (by simp [textLeavesList])
        simp only [pieces, Bool.false_and, Bool.true_and, if_true]
        rw [if_neg (by simp), hbegin]
        intro heq
        have hhead := (List.cons.inj heq).1
        simp [element] at hhead
      | false =>
        have hbehind := ih false (paragraph ++ [text]) hgrown hrest
        have hnext (format : List Char → List Char) (leaves : Bool) :
            pieces format leaves false paragraph (.text text :: lines) =
              pieces format leaves false (paragraph ++ [text]) lines := by
          simp [pieces]
        rw [hnext, hnext]
        refine hbehind.trans ?_
        simp only [List.forall_mem_append, List.forall_mem_singleton, textLeavesList,
          Bool.not_false, Bool.true_and, Line.inlineText]
        tauto

end Agreement

section Sources

variable {text : List Char}

theorem newlineFree_split (text : List Char) : ∀ raw ∈ text.splitOn '\n', '\n' ∉ raw := by
  induction text with
  | nil => simp
  | cons c text ih =>
    intro raw hraw
    by_cases hc : c = '\n'
    · subst hc
      have hcut : ([] ++ '\n' :: text).splitOn '\n' = [] :: text.splitOn '\n' :=
        List.splitOn_append_cons_self_of_not_mem List.not_mem_nil text
      rw [List.nil_append] at hcut
      rw [hcut] at hraw
      rcases List.mem_cons.mp hraw with rfl | hraw
      · exact List.not_mem_nil
      · exact ih raw hraw
    · have hne : (c == '\n') = false := beq_eq_false_iff_ne.mpr hc
      rw [List.splitOn_cons_eq_if_modifyHead, hne] at hraw
      simp only [Bool.false_eq_true, if_false] at hraw
      cases hsplit : text.splitOn '\n' with
      | nil =>
        rw [hsplit] at hraw
        cases hraw
      | cons first rest =>
        rw [hsplit] at hraw ih
        rcases List.mem_cons.mp hraw with rfl | hraw
        · exact List.not_mem_cons_of_ne_of_not_mem (Ne.symm hc) (ih first List.mem_cons_self)
        · exact ih raw (List.mem_cons_of_mem first hraw)

theorem afterSpaces_sublist {rest : List Char} (h : afterSpaces text = some rest) :
    rest.Sublist text := by
  unfold afterSpaces at h
  dsimp only at h
  split at h
  next =>
    cases h
    exact List.dropWhile_sublist _
  next => cases h

theorem trim_sublist (text : List Char) : (trim text).Sublist text :=
  (List.rdropWhile_prefix _ _).sublist.trans (List.dropWhile_sublist _)

theorem classify_sublist (raw : List Char) : (classify raw).inlineText.Sublist raw := by
  have hline := (List.rdropWhile_prefix Reports.isSpace raw).sublist
  unfold classify
  dsimp only
  split
  next => exact List.nil_sublist _
  next =>
    split
    next level text heq =>
      unfold headingAt at heq
      dsimp only at heq
      split at heq
      next =>
        obtain ⟨rest, hrest, hpair⟩ := Option.map_eq_some_iff.mp heq
        cases hpair
        rw [List.span_eq_takeWhile_dropWhile] at hrest
        exact (afterSpaces_sublist hrest).trans ((List.dropWhile_sublist _).trans hline)
      next => cases heq
    next =>
      have htrim := (trim_sublist (raw.rdropWhile Reports.isSpace)).trans hline
      split
      next text heq =>
        unfold listItemAt at heq
        split at heq
        next c rest hcons =>
          split at heq
          next =>
            refine (afterSpaces_sublist heq).trans (List.Sublist.trans ?_ htrim)
            rw [hcons]
            exact List.sublist_cons_self c rest
          next => cases heq
        next => cases heq
      next => exact htrim

theorem linesOf_flat (md : List Char) : ∀ l ∈ linesOf md, l.Flat := by
  intro l hl
  obtain ⟨raw, hraw, rfl⟩ := List.mem_map.mp hl
  exact fun hmem => newlineFree_split _ raw hraw ((classify_sublist raw).subset hmem)

end Sources

section Joined

variable {paragraph : List (List Char)} {lines : List Line} {listOpen leaves : Bool}

/-- A line of markup. -/
def Piece (piece : List Char) : Prop := piece ≠ [] ∧ '\n' ∉ piece

theorem piece_element {name : String} {content : List Char} (hname : '\n' ∉ name.toList)
    (h : '\n' ∉ content) : Piece (element name content) := by
  simp [Piece, element, hname, h]

theorem newlineFree_lines {format : List Char → List Char}
    (h : ∀ text ∈ paragraph, '\n' ∉ format text) :
    '\n' ∉ "<br />".toList.intercalate (paragraph.map format) := by
  induction paragraph with
  | nil => simp
  | cons first paragraph ih =>
    have hrest := ih fun text htext => h text (List.mem_cons_of_mem first htext)
    cases paragraph with
    | nil => simpa using h first List.mem_cons_self
    | cons second paragraph =>
      rw [List.map_cons, List.map_cons, List.intercalate_cons_cons]
      simp only [List.mem_append, not_or]
      exact ⟨⟨h first List.mem_cons_self, by decide +kernel⟩, hrest⟩

theorem pieces_flat (format : List Char → List Char) (leaves listOpen : Bool)
    (paragraph : List (List Char)) (hformat : ∀ text, '\n' ∉ text → '\n' ∉ format text)
    (hparagraph : ∀ text ∈ paragraph, '\n' ∉ text) (hlines : ∀ l ∈ lines, l.Flat ∧ l.WellFormed) :
    ∀ piece ∈ pieces format leaves listOpen paragraph lines, Piece piece := by
  have hclosing (listOpen : Bool) : ∀ piece ∈ closing listOpen, Piece piece := by
    intro piece hpiece
    cases listOpen with
    | false => cases hpiece
    | true =>
      rw [List.mem_singleton.mp hpiece]
      exact ⟨by decide +kernel, by decide +kernel⟩
  have hopening (listOpen : Bool) : ∀ piece ∈ opening listOpen, Piece piece := by
    intro piece hpiece
    cases listOpen with
    | true => cases hpiece
    | false =>
      rw [List.mem_singleton.mp hpiece]
      exact ⟨by decide +kernel, by decide +kernel⟩
  have hpieces (paragraph : List (List Char)) (h : ∀ text ∈ paragraph, '\n' ∉ text) :
      ∀ piece ∈ paragraphPieces (paragraph.map format), Piece piece := by
    intro piece hpiece
    unfold paragraphPieces at hpiece
    split at hpiece
    next => cases hpiece
    next =>
      rw [List.mem_singleton.mp hpiece]
      exact piece_element (by decide +kernel) (newlineFree_lines fun text htext =>
        hformat text (h text htext))
  have hall (xs ys : List (List Char)) (hxs : ∀ p ∈ xs, Piece p) (hys : ∀ p ∈ ys, Piece p) :
      ∀ p ∈ xs ++ ys, Piece p := List.forall_mem_append.mpr ⟨hxs, hys⟩
  induction lines generalizing listOpen paragraph with
  | nil => exact hall _ _ (hpieces _ hparagraph) (hclosing _)
  | cons l lines ih =>
    obtain ⟨hl, hlevel⟩ := hlines l List.mem_cons_self
    have hrest := fun l' hl' => hlines l' (List.mem_cons_of_mem l hl')
    cases l with
    | blank =>
      exact hall _ _ (hpieces _ hparagraph) (hall _ _ (hclosing _) (ih _ _ (by simp) hrest))
    | heading level text =>
      have hname : '\n' ∉ ("h" ++ toString level).toList := by
        obtain ⟨hlow, hhigh⟩ := hlevel
        have hcases : level = 1 ∨ level = 2 ∨ level = 3 := by omega
        rcases hcases with rfl | rfl | rfl <;> decide +kernel
      have hheading : Piece (element ("h" ++ toString level) (format text)) :=
        piece_element hname (hformat text hl)
      exact hall _ _ (hpieces _ hparagraph) (hall _ _ (hclosing _)
        (List.forall_mem_cons.mpr ⟨hheading, ih _ _ (by simp) hrest⟩))
    | item text =>
      have hitem : Piece (element "li" (format text)) :=
        piece_element (by decide +kernel) (hformat text hl)
      exact hall _ _ (hpieces _ hparagraph) (hall _ _ (hopening _)
        (List.forall_mem_cons.mpr ⟨hitem, ih _ _ (by simp) hrest⟩))
    | text text =>
      have hgrown : ∀ text' ∈ paragraph ++ [text], '\n' ∉ text' :=
        List.forall_mem_append.mpr ⟨hparagraph, List.forall_mem_singleton.mpr hl⟩
      unfold pieces
      split
      next =>
        exact List.forall_mem_cons.mpr ⟨⟨by decide +kernel, by decide +kernel⟩, ih _ _ hgrown hrest⟩
      next => exact ih _ _ hgrown hrest

/-- Joined lines show what the lines were. -/
theorem joined_injective {xs ys : List (List Char)} (hxs : ∀ p ∈ xs, Piece p)
    (hys : ∀ p ∈ ys, Piece p) (h : ['\n'].intercalate xs = ['\n'].intercalate ys) : xs = ys := by
  have hsplit (zs : List (List Char)) (hzs : ∀ p ∈ zs, Piece p) (hne : zs ≠ []) :
      (['\n'].intercalate zs).splitOn '\n' = zs :=
    List.splitOn_intercalate '\n' (fun p hp => (hzs p hp).2) hne
  have hempty (zs : List (List Char)) (hzs : ∀ p ∈ zs, Piece p)
      (hnil : ['\n'].intercalate zs = []) : zs = [] := by
    by_contra hne
    have hback := hsplit zs hzs hne
    rw [hnil] at hback
    have hblank : [] ∈ zs := by
      rw [← hback]
      exact List.mem_singleton_self []
    exact (hzs [] hblank).1 rfl
  by_cases hx : xs = []
  · subst hx
    exact (hempty ys hys h.symm).symm
  · by_cases hy : ys = []
    · subst hy
      exact hempty xs hxs h
    · rw [← hsplit xs hxs hx, h, hsplit ys hys hy]

end Joined

/-- The contract on screen is the printed one, exactly when both renderers read its source
alike. -/
theorem same_contract_iff (md : List Char) : SameContract md ↔ readAlike md := by
  have hflat := linesOf_flat md
  have hformed : ∀ l ∈ linesOf md, l.Flat ∧ l.WellFormed := by
    intro l hl
    refine ⟨hflat l hl, ?_⟩
    obtain ⟨raw, -, rfl⟩ := List.mem_map.mp hl
    exact classify_wellFormed raw
  have hhtml : htmlPieces (linesOf md) = pieces inlineFormat false false [] (linesOf md) :=
    htmlPieces_eq (linesOf md) ⟨[], false, []⟩
  have hblocks : (blocksOf (linesOf md)).flatMap MarkdownBlock.toHtml =
      pieces showText true false [] (linesOf md) :=
    blockPieces_eq (linesOf md) ⟨[], [], []⟩ [] rfl (.inl rfl)
  have hpieces := pieces_eq_iff false [] (by simp) hflat
  have hscreen := pieces_flat inlineFormat false false []
    (fun text h => (tagged_inlineFormat h).newlineFree) (by simp) hformed
  have hprint := pieces_flat showText true false []
    (fun text h => (tagged_spans h).newlineFree) (by simp) hformed
  unfold SameContract markdownToHtml blocksToHtml parseMarkdownBlocks readAlike
  rw [hhtml, hblocks, Bool.and_eq_true, List.all_eq_true]
  constructor
  · intro hsame
    exact (hpieces.mp (joined_injective hscreen hprint hsame)).2
  · intro halike
    rw [hpieces.mpr ⟨by simp, halike⟩]

/-- A line of text under a list stays in the list on screen. -/
theorem text_under_list : ¬ ∀ md, SameContract md := by
  intro hlaw
  have hsame := hlaw "- 1 set of tyres\nDelivery on Monday".toList
  have hdiffer : markdownToHtml "- 1 set of tyres\nDelivery on Monday".toList ≠
      blocksToHtml (parseMarkdownBlocks "- 1 set of tyres\nDelivery on Monday".toList) := by
    decide +kernel
  exact hdiffer hsame

end CarSalePro.Legal
