import Ostinato.Proofs.Source.Positions

/-!
# Every byte of a text is accounted for

The span of an instruction or of a declaration holds its bytes and nothing else (`StandsAt`), the spans of a listing
follow each other and do not overlap, and what lies outside of them says nothing (`IsIgnored`).
-/

namespace Ostinato

open Text

/-! ### What a span holds -/

/-- The code `text` is what stands at `span`, on the line with the given number and without blanks around it. -/
structure StandsAt (source text : String) (number : Nat) (span : Span) : Prop where
  bytes_eq : (bytes source).extract span.start span.stop = bytes text
  start_lt_stop : span.start < span.stop
  stop_le : span.stop ≤ (bytes source).length
  isValid_start : (⟨span.start⟩ : String.Pos.Raw).IsValid source
  isValid_stop : (⟨span.stop⟩ : String.Pos.Raw).IsValid source
  one_line : '\n'.toUInt8 ∉ (bytes source).extract span.start span.stop
  number_eq : number = 1 + ((bytes source).take span.start).count '\n'.toUInt8
  no_lineFeed : '\n' ∉ text.toList
  no_semicolon : ';' ∉ text.toList
  head_ne_blank : text.toList.head? ≠ some ' ' ∧ text.toList.head? ≠ some '\t'
  last_ne_blank : text.toList.getLast? ≠ some ' ' ∧ text.toList.getLast? ≠ some '\t'

/-- A part of a source without line feeds, semicolons and blanks around it stands where it is found. -/
private theorem standsAt_of_append {source : String} {front text back : List Char}
    (h : source.toList = front ++ (text ++ back)) (hne : text ≠ []) (hlineFeed : '\n' ∉ text) (hsemicolon : ';' ∉ text)
    (hhead : ∀ c, text.head? = some c → isBlank c = false) (hlast : ∀ c, text.getLast? = some c → isBlank c = false) :
    StandsAt source (String.ofList text) (1 + front.count '\n')
      ⟨byteCount front, byteCount front + byteCount text⟩ := by
  have hextract : (bytes source).extract (byteCount front) (byteCount front + byteCount text) = utf8 text :=
    extract_bytes h
  have hpositive : 0 < byteCount text := by
    obtain ⟨c, cs, rfl⟩ := List.exists_cons_of_ne_nil hne
    have hsize := c.utf8Size_pos
    rw [byteCount]
    omega
  have hheadBlank : ∀ c, isBlank c = true → text.head? ≠ some c := by
    intro c hc e
    rw [hhead c e] at hc
    cases hc
  have hlastBlank : ∀ c, isBlank c = true → text.getLast? ≠ some c := by
    intro c hc e
    rw [hlast c e] at hc
    cases hc
  have hstop : (⟨byteCount (front ++ text)⟩ : String.Pos.Raw).IsValid source := by
    refine @isValid_byteCount source _ back ?_
    rw [h, List.append_assoc]
  exact {
    bytes_eq := by rw [hextract, bytes_eq, String.toList_ofList]
    start_lt_stop := Nat.lt_add_of_pos_right hpositive
    stop_le := by
      rw [bytes_eq, length_utf8, h, byteCount_append, byteCount_append, ← Nat.add_assoc]
      exact Nat.le_add_right _ _
    isValid_start := isValid_byteCount h
    isValid_stop := by rwa [byteCount_append] at hstop
    one_line := by rwa [hextract, mem_utf8_iff (by decide)]
    number_eq := by rw [take_bytes h, count_utf8 (by decide)]
    no_lineFeed := by rwa [String.toList_ofList]
    no_semicolon := by rwa [String.toList_ofList]
    head_ne_blank := by
      rw [String.toList_ofList]
      exact ⟨hheadBlank ' ' rfl, hheadBlank '\t' rfl⟩
    last_ne_blank := by
      rw [String.toList_ofList]
      exact ⟨hlastBlank ' ' rfl, hlastBlank '\t' rfl⟩ }

private theorem standsAt_of_line {source : String} {before after : List (List Char)} {line : List Char}
    (h : linesOf source.toList = before ++ line :: after) (hne : content line ≠ []) :
    StandsAt source (String.ofList (content line)) (before.length + 1)
      (Listing.lineSpan (startBehind before) line) := by
  have hline : '\n' ∉ line := not_mem_of_mem_linesOf (h ▸ List.mem_append_right _ (List.mem_cons_self ..))
  have hbefore : ∀ l ∈ before, '\n' ∉ l := fun l hl => not_mem_of_mem_linesOf (h ▸ List.mem_append_left _ hl)
  obtain ⟨rest, hsource, -⟩ := eq_unlines_append h
  obtain ⟨margin, comment, ending, hparts, -⟩ := exists_parts line
  rw [hparts] at hline
  simp only [List.mem_append, not_or] at hline
  obtain ⟨hindent, hcontent, -⟩ := hline
  -- the span starts behind the indent and is as long as the content
  have hback : source.toList =
      (unlines before ++ indent line) ++ (content line ++ (margin ++ (comment ++ ending) ++ rest)) := by
    conv_lhs => rw [hsource, hparts]
    simp only [List.append_assoc]
  have hnumber : 1 + (unlines before ++ indent line).count '\n' = before.length + 1 := by
    rw [List.count_append, count_unlines hbefore, List.count_eq_zero_of_not_mem hindent]
    omega
  have hspan : (⟨byteCount (unlines before ++ indent line),
      byteCount (unlines before ++ indent line) + byteCount (content line)⟩ : Span) =
        Listing.lineSpan (startBehind before) line := by
    rw [byteCount_append]
    rfl
  rw [← hnumber, ← hspan]
  exact standsAt_of_append hback hne hcontent (semicolon_not_mem_content line) (fun c => isBlank_head_content)
    fun c => isBlank_getLast_content

/-! ### What lies outside of the spans -/

/-- The byte at `i` says nothing: it is a blank, a line feed, a carriage return at the end of a line, or part of a
comment, that is at or behind a semicolon on its line. -/
inductive IsIgnored (bytes : List UInt8) (i : Nat) : Prop
  | space (h : bytes[i]? = some ' '.toUInt8)
  | tab (h : bytes[i]? = some '\t'.toUInt8)
  | lineFeed (h : bytes[i]? = some '\n'.toUInt8)
  | carriageReturn (h : bytes[i]? = some '\r'.toUInt8)
      (hnext : bytes[i + 1]? = none ∨ bytes[i + 1]? = some '\n'.toUInt8)
  | comment (j : Nat) (hle : j ≤ i) (hsemicolon : bytes[j]? = some ';'.toUInt8)
      (hline : ∀ k, j ≤ k → k ≤ i → bytes[k]? ≠ some '\n'.toUInt8)

section Ignored

variable {source : String} {lines later : List (List Char)} {front back : List Char} {c : Char} {i : Nat}

private theorem utf8Size_of_isBlank (hc : isBlank c = true) : c.utf8Size = 1 := by
  rw [isBlank, Bool.or_eq_true, beq_iff_eq, beq_iff_eq] at hc
  rcases hc with rfl | rfl <;> decide

private theorem isIgnored_of_isBlank (h : source.toList = front ++ c :: back) (hc : isBlank c = true) :
    IsIgnored (bytes source) (byteCount front) := by
  rw [isBlank, Bool.or_eq_true, beq_iff_eq, beq_iff_eq] at hc
  rw [bytes_eq, h]
  rcases hc with rfl | rfl
  · exact .space (getElem?_utf8 (by decide) front back)
  · exact .tab (getElem?_utf8 (by decide) front back)

private theorem byteCount_le_of_concat {before after : List Char} {d : Char} (h : front ++ [c] = before ++ d :: after) :
    byteCount before ≤ byteCount front := by
  have hlength : before.length ≤ front.length := by
    have hlengths := congrArg List.length h
    simp only [List.length_append, List.length_cons, List.length_nil] at hlengths
    omega
  have hbefore : before <+: front ++ [c] := ⟨_, h.symm⟩
  obtain ⟨left, rfl⟩ := List.prefix_of_prefix_length_le hbefore (List.prefix_append front [c]) hlength
  rw [byteCount_append]
  exact Nat.le_add_right _ _

private theorem isIgnored_of_semicolon (hlines : linesOf source.toList = lines ++ (front ++ c :: back) :: later)
    (hmem : ';' ∈ front ++ [c]) (hlow : byteCount (unlines lines ++ front) ≤ i)
    (hhigh : i < byteCount (unlines lines ++ front) + c.utf8Size) : IsIgnored (bytes source) i := by
  obtain ⟨rest, hsource, -⟩ := eq_unlines_append hlines
  have hline : '\n' ∉ front ++ c :: back :=
    not_mem_of_mem_linesOf (hlines ▸ List.mem_append_right _ (List.mem_cons_self ..))
  have hsize : byteCount (front ++ [c]) = byteCount front + c.utf8Size := by
    rw [byteCount_append]
    rfl
  rw [byteCount_append] at hlow hhigh
  obtain ⟨before, after, hsplit⟩ := List.append_of_mem hmem
  have hline' : '\n' ∉ front ++ [c] := by
    simp only [List.mem_append, List.mem_cons, not_or] at hline ⊢
    exact ⟨hline.1, hline.2.1, List.not_mem_nil⟩
  have hsource' : source.toList = unlines lines ++ ((front ++ [c]) ++ (back ++ rest)) := by
    rw [hsource]
    simp only [List.append_assoc, List.cons_append, List.nil_append]
  -- what stands in front of the semicolon also stands in front of the character
  have hstart : byteCount before ≤ byteCount front := byteCount_le_of_concat hsplit
  refine .comment (byteCount (unlines lines ++ before)) ?_ ?_ fun k hk hki => ?_
  · rw [byteCount_append]
    omega
  · have hsemicolon : source.toList = (unlines lines ++ before) ++ ';' :: (after ++ (back ++ rest)) := by
      rw [hsource', hsplit]
      simp only [List.append_assoc, List.cons_append]
    rw [bytes_eq, hsemicolon]
    exact getElem?_utf8 (by decide) _ _
  · rw [byteCount_append] at hk
    refine getElem?_bytes_ne (by decide) hsource' hline' ?_ ?_
    · omega
    · omega

private theorem isIgnored_carriageReturn (hlines : linesOf source.toList = lines ++ (front ++ ['\r']) :: later) :
    IsIgnored (bytes source) (byteCount (unlines lines ++ front)) := by
  obtain ⟨rest, hsource, hrest⟩ := eq_unlines_append hlines
  have hreturn : source.toList = (unlines lines ++ front) ++ '\r' :: rest := by
    rw [hsource]
    simp only [List.append_assoc, List.cons_append, List.nil_append]
  have hsize : byteCount ((unlines lines ++ front) ++ ['\r']) = byteCount (unlines lines ++ front) + 1 := by
    rw [byteCount_append (_ ++ _)]
    rfl
  refine .carriageReturn ?_ ?_
  · rw [bytes_eq, hreturn]
    exact getElem?_utf8 (by decide) _ rest
  · rcases hrest with rfl | hrest
    · refine .inl (List.getElem?_eq_none ?_)
      rw [bytes_eq, hreturn, length_utf8, hsize]
    · obtain ⟨after, rfl⟩ := List.head?_eq_some_iff.1 hrest
      have hnext : source.toList = ((unlines lines ++ front) ++ ['\r']) ++ '\n' :: after := by
        rw [hreturn, List.append_assoc _ ['\r']]
        rfl
      rw [bytes_eq, hnext, ← hsize]
      exact .inr (getElem?_utf8 (by decide) _ after)

/-- A byte that is not ignored belongs to the content of its line. -/
private theorem exists_content_of_not_isIgnored (hi : i < (bytes source).length) (h : ¬ IsIgnored (bytes source) i) :
    ∃ before line after, linesOf source.toList = before ++ line :: after ∧
      (Listing.lineSpan (startBehind before) line).start ≤ i ∧
        i < (Listing.lineSpan (startBehind before) line).stop := by
  rw [bytes_eq, length_utf8] at hi
  obtain ⟨text, c, rest, hsource, hlow, hhigh⟩ := exists_eq_append_of_lt hi
  -- a character of one byte starts at that byte
  have hstart : c.utf8Size = 1 → i = byteCount text := by omega
  by_cases hc : c = '\n'
  · subst hc
    obtain rfl := hstart (by decide)
    exact absurd (.lineFeed (by rw [bytes_eq, hsource]; exact getElem?_utf8 (by decide) text rest)) h
  obtain ⟨before, front, back, after, hlines, rfl⟩ := exists_line_of_eq_append hsource hc
  rcases char_cases (@rfl _ (front ++ c :: back)) with
    hblank | ⟨left, right, hfront, hcontent⟩ | hsemicolon | ⟨rfl, rfl⟩
  · obtain rfl := hstart (utf8Size_of_isBlank hblank)
    exact absurd (isIgnored_of_isBlank hsource hblank) h
  · refine ⟨before, front ++ c :: back, after, hlines, ?_⟩
    have hsize := congrArg byteCount hcontent
    rw [byteCount_append, byteCount] at hsize
    rw [byteCount_append, hfront, byteCount_append] at hlow hhigh
    show startBehind before + _ ≤ i ∧ i < startBehind before + _ + _
    rw [startBehind]
    omega
  · exact absurd (isIgnored_of_semicolon hlines hsemicolon hlow hhigh) h
  · obtain rfl := hstart (by decide)
    exact absurd (isIgnored_carriageReturn hlines) h

end Ignored

/-! ### Listings -/

section Places

variable {before lines : List (List Char)} {line : List Char}

/-- The numbers and the spans of the instructions and of the declarations. -/
def Listing.places (listing : Listing) : List (Nat × Span) :=
  listing.lines.map (fun l => (l.number, l.span)) ++ listing.declarations.map fun d => (d.number, d.span)

/-- The number and the span of the instruction or of the declaration on a line. -/
private def placesOn (before : List (List Char)) (line : List Char) : List (Nat × Span) :=
  (instructionsOn before line).map (fun l => (l.number, l.span)) ++
    (declarationsOn before line).map fun d => (d.number, d.span)

private theorem placesOn_eq (before : List (List Char)) (line : List Char) :
    placesOn before line =
      if content line = [] then [] else [(before.length + 1, Listing.lineSpan (startBehind before) line)] := by
  rcases line_cases (content line) with h | ⟨name, h⟩ | h
  · rw [placesOn, instructionsOn_of_blank h, declarationsOn_of_blank h, if_pos h]
    rfl
  · rw [placesOn, instructionsOn_of_label h, declarationsOn_of_label h, if_neg (by simp [h])]
    rfl
  · have hne : content line ≠ [] := by
      intro e
      rw [e] at h
      cases h
    rw [placesOn, instructionsOn_of_instruction h, declarationsOn_of_instruction h, if_neg hne]
    rfl

private theorem perm_places (source : String) :
    (Listing.parse source).places.Perm (sweep placesOn [] (linesOf source.toList)) := by
  rw [Listing.places, Listing.lines_parse, Listing.declarations_parse, map_sweep, map_sweep]
  exact perm_sweep _ _ [] (linesOf source.toList)

private theorem mem_placesOn_iff {place : Nat × Span} :
    place ∈ placesOn before line ↔
      content line ≠ [] ∧ place = (before.length + 1, Listing.lineSpan (startBehind before) line) := by
  rw [placesOn_eq]
  split <;> simp_all

private theorem pairwise_sweep_placesOn :
    (sweep placesOn before lines).Pairwise fun a b => a.1 < b.1 ∧ a.2.stop ≤ b.2.start := by
  refine pairwise_sweep (fun before line => ?_) fun before line between other a ha b hb => ?_
  · rw [placesOn_eq]
    split
    · exact .nil
    · exact List.pairwise_singleton _ _
  · obtain ⟨-, rfl⟩ := mem_placesOn_iff.1 ha
    obtain ⟨-, rfl⟩ := mem_placesOn_iff.1 hb
    have hlt := stop_lineSpan_lt before line between
    have hle := startBehind_le_start (before ++ line :: between) other
    refine ⟨?_, Nat.le_of_lt (Nat.lt_of_lt_of_le hlt hle)⟩
    show before.length + 1 < (before ++ line :: between).length + 1
    rw [List.length_append, List.length_cons]
    omega

/-- What stands on a line and has its span follows what stands on the lines in front. -/
private theorem pairwise_stop_le_start {α : Type} {f : List (List Char) → List Char → List α} {place : α → Nat × Span}
    (h : ∀ before line, ((f before line).map place).Sublist (placesOn before line)) :
    (sweep f before lines).Pairwise fun a b => (place a).2.stop ≤ (place b).2.start := by
  have hsublist : ((sweep f before lines).map place).Sublist (sweep placesOn before lines) := by
    rw [map_sweep]
    exact sublist_sweep h
  have hplaces := pairwise_sweep_placesOn.sublist hsublist
  rw [List.pairwise_map] at hplaces
  exact hplaces.imp fun hab => hab.2

end Places

section Parse

variable {source : String}

private theorem standsAt_of_mem_lines {l : Line} (h : l ∈ (Listing.parse source).lines) :
    StandsAt source l.text l.number l.span ∧ l.text.toList.head? ≠ some ':' := by
  rw [Listing.lines_parse] at h
  obtain ⟨before, line, after, hlines, hl⟩ := mem_sweep_iff.1 h
  rw [List.nil_append, instructionsOn] at hl
  split at hl
  · rename_i hinstruction
    obtain rfl := List.mem_singleton.1 hl
    refine ⟨standsAt_of_line hlines ?_, ?_⟩
    · intro e
      rw [e] at hinstruction
      cases hinstruction
    · rw [String.toList_ofList]
      intro e
      obtain ⟨name, hname⟩ := List.head?_eq_some_iff.1 e
      exact ne_label_of_isInstruction hinstruction name hname
  · cases hl

private theorem standsAt_of_mem_declarations {d : Declaration} (h : d ∈ (Listing.parse source).declarations) :
    StandsAt source (":" ++ d.name) d.number d.span := by
  rw [Listing.declarations_parse] at h
  obtain ⟨before, line, after, hlines, hd⟩ := mem_sweep_iff.1 h
  rcases line_cases (content line) with hline | ⟨name, hline⟩ | hline
  · rw [declarationsOn_of_blank hline] at hd
    cases hd
  · rw [declarationsOn_of_label hline] at hd
    obtain rfl := List.mem_singleton.1 hd
    have hstands := standsAt_of_line hlines (by simp [hline])
    have htext : String.ofList (content line) = ":" ++ String.ofList name := by
      rw [hline, ← List.singleton_append, String.ofList_append]
    rwa [htext] at hstands
  · rw [declarationsOn_of_instruction hline] at hd
    cases hd

end Parse

/-- A listing accounts for every byte of its text: its instructions and declarations stand where their spans say,
one of them on a line at most, in order and without overlap, and the bytes outside of the spans say nothing. -/
theorem parse_accounts_for_bytes (source : String) :
    (∀ l ∈ (Listing.parse source).lines,
        StandsAt source l.text l.number l.span ∧ l.text.toList.head? ≠ some ':') ∧
      (∀ d ∈ (Listing.parse source).declarations, StandsAt source (":" ++ d.name) d.number d.span) ∧
      (Listing.parse source).lines.Pairwise (fun a b => a.span.stop ≤ b.span.start) ∧
      (Listing.parse source).declarations.Pairwise (fun a b => a.span.stop ≤ b.span.start) ∧
      (Listing.parse source).places.Pairwise
        (fun a b => a.1 ≠ b.1 ∧ (a.2.stop ≤ b.2.start ∨ b.2.stop ≤ a.2.start)) ∧
      ∀ i < (bytes source).length,
        (∀ place ∈ (Listing.parse source).places, i < place.2.start ∨ place.2.stop ≤ i) →
          IsIgnored (bytes source) i := by
  have hplaces : (Listing.parse source).places.Pairwise fun a b =>
      a.1 ≠ b.1 ∧ (a.2.stop ≤ b.2.start ∨ b.2.stop ≤ a.2.start) := by
    refine (perm_places source).symm.pairwise ?_ fun hab => ⟨Ne.symm hab.1, hab.2.symm⟩
    exact pairwise_sweep_placesOn.imp fun hab => ⟨Nat.ne_of_lt hab.1, .inl hab.2⟩
  refine ⟨fun l => standsAt_of_mem_lines, fun d => standsAt_of_mem_declarations, ?_, ?_, hplaces, ?_⟩
  · rw [Listing.lines_parse]
    exact pairwise_stop_le_start fun before line => List.sublist_append_left _ _
  · rw [Listing.declarations_parse]
    exact pairwise_stop_le_start fun before line => List.sublist_append_right _ _
  · intro i hi houtside
    by_contra hignored
    obtain ⟨before, line, after, hlines, hstart, hstop⟩ := exists_content_of_not_isIgnored hi hignored
    have hne : content line ≠ [] := by
      intro e
      have hempty : (Listing.lineSpan (startBehind before) line).stop =
          (Listing.lineSpan (startBehind before) line).start := by
        rw [Listing.lineSpan, e]
        rfl
      omega
    have hmem : (before.length + 1, Listing.lineSpan (startBehind before) line) ∈
        (Listing.parse source).places := by
      rw [(perm_places source).mem_iff, mem_sweep_iff]
      exact ⟨before, line, after, hlines, mem_placesOn_iff.2 ⟨hne, rfl⟩⟩
    rcases houtside _ hmem with hlow | hhigh
    · exact absurd hstart (Nat.not_le.2 hlow)
    · exact absurd hstop (Nat.not_lt.2 hhigh)

end Ostinato
