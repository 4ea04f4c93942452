import Localization.Markup.Protection
import Localization.Proofs.Runs
import Localization.Proofs.Scan

/-! Which spans of markup get marks around them. A scan from left to right over tags and
placeholders gives the segments of the markup: a placeholder that it takes is wrapped, a tag or any
other character is kept. -/

namespace Localization.Markup.Protection

/-- What is kept from being translated: a name in braces, or an icon. -/
inductive IsPlaceholder : List Char → Prop
  | brace {name : List Char} (nonempty : name ≠ []) (plain : ∀ c ∈ name, isBraceChar c = true) :
    IsPlaceholder ('{' :: (name ++ ['}']))
  | icon {name : List Char} (nonempty : name ≠ []) (known : ∀ c ∈ name, isIconChar c = true) :
    IsPlaceholder ('$' :: '(' :: (name ++ [')']))

/-- A tag is closed by the next `>`, and something is in it. -/
def IsTag (tag : List Char) : Prop :=
  ∃ name, tag = '<' :: (name ++ ['>']) ∧ name ≠ [] ∧ '>' ∉ name

/-- Markup before a place that is in no tag: whatever opens in it is closed in it. -/
def BetweenTags (before : List Char) : Prop :=
  ∀ front back, before = front ++ '<' :: back → '>' ∈ back

/-- Every `<` that is not in a tag opens one. -/
def Tagged (cs : List Char) : Prop :=
  ∀ before after, cs = before ++ '<' :: after → BetweenTags before →
    ∃ tag rest, '<' :: after = tag ++ rest ∧ IsTag tag

/-- Markup begins with a tag or a placeholder of a length. -/
inductive Opens : List Char → Nat → Prop
  | tag {tag rest : List Char} (isTag : IsTag tag) : Opens (tag ++ rest) tag.length
  | placeholder {p rest : List Char} (isPlaceholder : IsPlaceholder p) : Opens (p ++ rest) p.length

/-- A segment of markup: one that is left as it is, or one that gets marks around it. -/
inductive Segment where
  | kept (cs : List Char)
  | wrapped (cs : List Char)

def Segment.source : Segment → List Char
  | .kept cs => cs
  | .wrapped cs => cs

def Segment.marked : Segment → List Char
  | .kept cs => cs
  | .wrapped cs => openMark ++ cs ++ closeMark

/-- A segment stands behind some markup. -/
def At (segments : List Segment) (before : List Char) (segment : Segment) : Prop :=
  ∃ past more, segments = past ++ segment :: more ∧ before = past.flatMap Segment.source

/-- A placeholder stands behind some markup, in the text between tags. -/
def InText (cs before p : List Char) : Prop :=
  (∃ after, cs = before ++ p ++ after) ∧ IsPlaceholder p ∧ BetweenTags before

/-! What tags and placeholders are made of. -/

theorem IsPlaceholder.eq_cons {p : List Char} (h : IsPlaceholder p) :
    ∃ c body, p = c :: body ∧ body ≠ [] := by
  cases h with
  | brace => exact ⟨_, _, rfl, by simp⟩
  | icon => exact ⟨_, _, rfl, by simp⟩

theorem IsPlaceholder.not_mem {p : List Char} (h : IsPlaceholder p) : '<' ∉ p := by
  cases h with
  | brace _ plain =>
    intro hmem
    simp only [List.mem_cons, List.mem_append, List.not_mem_nil, or_false] at hmem
    rcases hmem with h | h | h
    · cases h
    · exact absurd (plain _ h) (by decide)
    · cases h
  | icon _ known =>
    intro hmem
    simp only [List.mem_cons, List.mem_append, List.not_mem_nil, or_false] at hmem
    rcases hmem with h | h | h | h
    · cases h
    · cases h
    · exact absurd (known _ h) (by decide)
    · cases h

theorem IsTag.length_pos {tag : List Char} (h : IsTag tag) : 0 < tag.length := by
  obtain ⟨name, rfl, -, -⟩ := h
  simp

theorem tagLength?_eq_some_iff {cs : List Char} {n : Nat} :
    tagLength? cs = some n ↔ ∃ tag rest, cs = tag ++ rest ∧ IsTag tag ∧ n = tag.length := by
  constructor
  · intro h
    unfold tagLength? at h
    split at h
    · rename_i after
      obtain ⟨name, rest, rfl, hname, hrest⟩ := exists_run (fun c : Char => decide (c ≠ '>')) after
      rw [takeWhile_run hname hrest] at h
      dsimp only at h
      split at h
      · cases h
      · rename_i hn
        simp only [Bool.or_eq_true, decide_eq_true_eq, not_or, List.length_eq_zero_iff,
          List.length_append] at hn
        obtain ⟨hne, hlength⟩ := hn
        obtain ⟨c, rest, rfl⟩ : ∃ c more, rest = c :: more := by
          apply List.exists_cons_of_ne_nil
          rintro rfl
          exact hlength rfl
        obtain rfl : c = '>' := by simpa using hrest c (by simp)
        refine ⟨'<' :: (name ++ ['>']), rest, by simp, ⟨name, rfl, hne, fun hmem => ?_⟩, ?_⟩
        · simpa using hname _ hmem
        · simpa using (Option.some.inj h).symm
    · cases h
  · rintro ⟨tag, rest, rfl, ⟨name, rfl, hne, hfirst⟩, rfl⟩
    have hname : ∀ c ∈ name, decide (c ≠ '>') = true := by
      intro c hc
      rw [decide_eq_true_eq]
      rintro rfl
      exact hfirst hc
    have hends : ∀ c ∈ ('>' :: rest).head?, decide (c ≠ '>') = false := by simp
    simp only [List.cons_append, List.append_assoc, List.nil_append, tagLength?,
      takeWhile_run hname hends]
    simp [hne]

theorem placeholderLength?_eq_some_iff {cs : List Char} {n : Nat} :
    placeholderLength? cs = some n ↔ ∃ p rest, cs = p ++ rest ∧ IsPlaceholder p ∧ n = p.length := by
  have hbrace : isBraceChar '}' = false := by decide
  have hparen : isIconChar ')' = false := by decide
  constructor
  · intro h
    unfold placeholderLength? at h
    split at h
    · obtain ⟨name, rest, rfl, hne, plain, rfl⟩ := (closedLength_eq_some_iff hbrace).mp h
      exact ⟨'{' :: (name ++ ['}']), rest, by simp, .brace hne plain, by simp⟩
    · obtain ⟨name, rest, rfl, hne, known, rfl⟩ := (closedLength_eq_some_iff hparen).mp h
      exact ⟨'$' :: '(' :: (name ++ [')']), rest, by simp, .icon hne known, by simp⟩
    · cases h
  · rintro ⟨p, rest, rfl, hp, rfl⟩
    cases hp with
    | @brace name hne plain =>
      apply (closedLength_eq_some_iff hbrace).mpr
      exact ⟨name, rest, by simp, hne, plain, by simp⟩
    | @icon name hne known =>
      apply (closedLength_eq_some_iff hparen).mpr
      exact ⟨name, rest, by simp, hne, known, by simp⟩

theorem opens_iff {cs : List Char} {n : Nat} :
    Opens cs n ↔ tagLength? cs = some n ∨ placeholderLength? cs = some n := by
  rw [tagLength?_eq_some_iff, placeholderLength?_eq_some_iff]
  constructor
  · intro h
    cases h with
    | tag isTag => exact .inl ⟨_, _, rfl, isTag, rfl⟩
    | placeholder isPlaceholder => exact .inr ⟨_, _, rfl, isPlaceholder, rfl⟩
  · rintro (⟨tag, rest, rfl, htag, rfl⟩ | ⟨p, rest, rfl, hp, rfl⟩)
    · exact .tag htag
    · exact .placeholder hp

theorem Opens.isTag_or_isPlaceholder {m rest : List Char} (h : Opens (m ++ rest) m.length) :
    IsTag m ∨ IsPlaceholder m := by
  rw [opens_iff, tagLength?_eq_some_iff, placeholderLength?_eq_some_iff] at h
  rcases h with ⟨tag, rest', hsame, htag, hlength⟩ | ⟨p, rest', hsame, hp, hlength⟩
  · obtain ⟨rfl, -⟩ := List.append_inj hsame hlength
    exact .inl htag
  · obtain ⟨rfl, -⟩ := List.append_inj hsame hlength
    exact .inr hp

/-- No placeholder begins where a tag begins. -/
theorem IsPlaceholder.append_ne {p rest tag rest' : List Char} (hp : IsPlaceholder p)
    (htag : IsTag tag) : p ++ rest ≠ tag ++ rest' := by
  intro hsame
  obtain ⟨name, rfl, -, -⟩ := htag
  obtain ⟨c, body, rfl, -⟩ := hp.eq_cons
  obtain ⟨rfl, -⟩ := List.cons.inj hsame
  exact hp.not_mem (by simp)

theorem matching : Matching Opens where
  pos h := by
    cases h with
    | tag isTag => exact isTag.length_pos
    | placeholder isPlaceholder =>
      obtain ⟨c, body, rfl, -⟩ := isPlaceholder.eq_cons
      simp
  le_length h := by cases h <;> simp
  unique h h' := by
    rw [opens_iff] at h h'
    have hapart : ∀ {cs m n}, tagLength? cs = some m → placeholderLength? cs ≠ some n := by
      intro cs m n htag hp
      obtain ⟨tag, rest, rfl, htag, -⟩ := tagLength?_eq_some_iff.mp htag
      obtain ⟨p, rest', hsame, hp, -⟩ := placeholderLength?_eq_some_iff.mp hp
      exact hp.append_ne htag hsame.symm
    rcases h with h | h <;> rcases h' with h' | h'
    · exact Option.some.inj (h.symm.trans h')
    · exact absurd h' (hapart h)
    · exact absurd h (hapart h')
    · exact Option.some.inj (h.symm.trans h')

/-! Places in no tag. -/

theorem betweenTags_of_not_mem {a : List Char} (h : '<' ∉ a) : BetweenTags a := by
  rintro front back rfl
  simp at h

theorem betweenTags_nil : BetweenTags [] := betweenTags_of_not_mem List.not_mem_nil

theorem BetweenTags.append {a b : List Char} (ha : BetweenTags a) (hb : BetweenTags b) :
    BetweenTags (a ++ b) := by
  intro front back h
  rcases List.append_eq_append_iff.mp h with ⟨between, -, hsplit⟩ | ⟨between, hsplit, hback⟩
  · exact hb between back hsplit
  · cases between with
    | nil =>
      rw [List.nil_append] at hback
      exact hb [] back hback.symm
    | cons c between =>
      obtain ⟨rfl, rfl⟩ := List.cons.inj hback
      exact List.mem_append_left b (ha front between hsplit)

theorem BetweenTags.of_append {a b : List Char} (h : BetweenTags (a ++ b)) : BetweenTags b := by
  rintro front back rfl
  exact h (a ++ front) back (List.append_assoc a front _).symm

/-- A tag that is over leaves a place between tags. -/
theorem IsTag.betweenTags {tag : List Char} (h : IsTag tag) : BetweenTags tag := by
  obtain ⟨name, rfl, -, -⟩ := h
  intro front back h
  have hlast := congrArg List.getLast? h
  rcases List.eq_nil_or_concat back with rfl | ⟨init, c, rfl⟩
  · simp [List.getLast?_cons] at hlast
  · obtain rfl : '>' = c := by simpa [List.getLast?_cons] using hlast
    simp

/-- There is no place between tags inside of a tag. -/
theorem IsTag.not_betweenTags {front back : List Char} (h : IsTag (front ++ back))
    (hfront : front ≠ []) (hback : back ≠ []) (before : List Char) :
    ¬ BetweenTags (before ++ front) := by
  intro hbetween
  obtain ⟨name, htag, -, hfirst⟩ := h
  obtain ⟨c, y, rfl⟩ := List.exists_cons_of_ne_nil hfront
  obtain ⟨init, d, rfl⟩ := (List.eq_nil_or_concat back).resolve_left hback
  rw [List.concat_eq_append, ← List.append_assoc] at htag
  have hsame : ('<' :: name) ++ ['>'] = '<' :: (name ++ ['>']) := rfl
  obtain ⟨hname, -⟩ := List.append_inj' (htag.trans hsame.symm) rfl
  obtain ⟨rfl, rfl⟩ := List.cons.inj hname
  have hclosed := hbetween before y rfl
  exact hfirst (List.mem_append_left init hclosed)

/-! Markup with every `<` in a tag. -/

theorem Tagged.of_append {a b : List Char} (h : Tagged (a ++ b)) (ha : BetweenTags a) :
    Tagged b := by
  rintro before after rfl hbetween
  exact h (a ++ before) after (List.append_assoc a before _).symm (ha.append hbetween)

theorem Tagged.append {a b : List Char} (ha : Tagged a) (hb : Tagged b) (hbetween : BetweenTags a) :
    Tagged (a ++ b) := by
  intro before after h hbefore
  rcases List.append_eq_append_iff.mp h with ⟨between, rfl, hsplit⟩ | ⟨between, rfl, hsplit⟩
  · exact hb between after hsplit hbefore.of_append
  · cases between with
    | nil =>
      rw [List.append_nil] at hbetween
      exact hb [] after (by simpa using hsplit.symm) betweenTags_nil
    | cons c between =>
      obtain ⟨rfl, rfl⟩ := List.cons.inj hsplit
      obtain ⟨tag, rest, hopens, htag⟩ := ha before between rfl hbefore
      exact ⟨tag, rest ++ b, by rw [← List.append_assoc, ← hopens]; rfl, htag⟩

theorem tagged_of_not_mem {a : List Char} (h : '<' ∉ a) : Tagged a := by
  rintro before after rfl
  simp at h

theorem IsTag.tagged {tag : List Char} (h : IsTag tag) : Tagged tag := by
  rintro before after rfl hbefore
  by_cases hnil : before = []
  · subst hnil
    exact ⟨_, [], (List.append_nil _).symm, h⟩
  · exact absurd hbefore (h.not_betweenTags hnil (List.cons_ne_nil '<' after) [])

/-- A character over which a scan goes opens no tag. -/
theorem Tagged.ne_of_not_opens {c : Char} {rest : List Char} (h : Tagged (c :: rest))
    (none : ∀ n, ¬ Opens (c :: rest) n) : c ≠ '<' := by
  rintro rfl
  obtain ⟨tag, more, hopens, htag⟩ := h [] rest rfl betweenTags_nil
  apply none tag.length
  rw [hopens]
  exact .tag htag

/-! The pieces of markup, and the marks in a piece of text. -/

/-- A piece of markup with its marks. -/
def Piece.marked : Piece → List Char
  | .text cs => markText cs
  | .tag cs => cs

theorem protect_eq (cs : List Char) : protect cs = (pieces cs).flatMap Piece.marked := rfl

theorem tagLength?_of_ne {c : Char} (h : c ≠ '<') (cs : List Char) :
    tagLength? (c :: cs) = none := by
  unfold tagLength?
  split
  · rename_i heq
    exact absurd (List.cons.inj heq).1 h
  · rfl

theorem piecesFrom_skip (before skipped rest : List Char) :
    piecesFrom before skipped.length (skipped ++ rest) = piecesFrom before 0 rest := by
  induction skipped with
  | nil => rfl
  | cons c skipped ih => exact ih

theorem piecesFrom_text {before run rest : List Char} (h : '<' ∉ run) :
    piecesFrom before 0 (run ++ rest) = piecesFrom (run.reverse ++ before) 0 rest := by
  induction run generalizing before with
  | nil => rfl
  | cons c run ih =>
    rw [List.mem_cons, not_or] at h
    rw [List.cons_append, piecesFrom, tagLength?_of_ne (Ne.symm h.1)]
    simp [ih h.2]

theorem piecesFrom_tag {before tag : List Char} (h : IsTag tag) (rest : List Char) :
    piecesFrom before 0 (tag ++ rest) = .text before.reverse :: .tag tag :: pieces rest := by
  have hlength : tagLength? (tag ++ rest) = some tag.length :=
    tagLength?_eq_some_iff.mpr ⟨tag, rest, rfl, h, rfl⟩
  obtain ⟨c, tag, rfl⟩ := List.exists_cons_of_length_pos h.length_pos
  rw [List.cons_append] at hlength
  rw [List.cons_append, piecesFrom, hlength]
  have htake : (c :: (tag ++ rest)).take (c :: tag).length = c :: tag := List.take_left
  dsimp only
  rw [htake, List.length_cons, Nat.add_sub_cancel, piecesFrom_skip, pieces]

theorem markText_of_not_mem {cs : List Char} (h : '<' ∉ cs) : markText cs = markFrom 0 cs := by
  rw [markText, if_neg]
  intro hhead
  exact h (List.mem_of_mem_head? hhead)

theorem markFrom_skip {skipped : List Char} (h : skipped ≠ []) (rest : List Char) :
    markFrom skipped.length (skipped ++ rest) = skipped ++ closeMark ++ markFrom 0 rest := by
  induction skipped with
  | nil => exact absurd rfl h
  | cons c skipped ih =>
    cases skipped with
    | nil => rfl
    | cons d skipped => simpa [markFrom] using ih (List.cons_ne_nil d skipped)

theorem markFrom_placeholder {p : List Char} (h : IsPlaceholder p) (rest : List Char) :
    markFrom 0 (p ++ rest) = openMark ++ p ++ closeMark ++ markFrom 0 rest := by
  have hlength : placeholderLength? (p ++ rest) = some p.length :=
    placeholderLength?_eq_some_iff.mpr ⟨p, rest, rfl, h, rfl⟩
  obtain ⟨c, body, rfl, hbody⟩ := h.eq_cons
  rw [List.cons_append] at hlength
  rw [List.cons_append, markFrom, hlength]
  show openMark ++ c :: markFrom body.length (body ++ rest) = _
  rw [markFrom_skip hbody]
  simp

/-! The segments of markup. -/

/-- The segment for a step of a scan: only a placeholder gets marks. -/
def segmentOf : ScanStep Char → Segment
  | .item c => .kept [c]
  | .found cs => if cs.head? = some '<' then .kept cs else .wrapped cs

theorem source_segmentOf (s : ScanStep Char) : (segmentOf s).source = s.source := by
  cases s with
  | item c => rfl
  | found cs =>
    rw [segmentOf]
    split <;> rfl

theorem segmentOf_tag {tag : List Char} (h : IsTag tag) : segmentOf (.found tag) = .kept tag := by
  obtain ⟨name, rfl, -, -⟩ := h
  rfl

theorem segmentOf_placeholder {p : List Char} (h : IsPlaceholder p) :
    segmentOf (.found p) = .wrapped p := by
  rw [segmentOf, if_neg]
  intro hhead
  exact h.not_mem (List.mem_of_mem_head? hhead)

theorem sources_segmentOf (steps : List (ScanStep Char)) :
    (steps.map segmentOf).flatMap Segment.source = ScanStep.sources steps := by
  rw [List.flatMap_map]
  exact List.flatMap_congr fun s _ => source_segmentOf s

/-- The text before the first tag, and the pieces behind it, get the marks of the segments. -/
theorem exists_pieces {cs : List Char} {steps : List (ScanStep Char)} (h : Scan Opens cs steps)
    (htagged : Tagged cs) : ∃ run rest more, cs = run ++ rest ∧ '<' ∉ run ∧
      (∀ before, piecesFrom before 0 cs = .text (before.reverse ++ run) :: more) ∧
      markFrom 0 run ++ more.flatMap Piece.marked =
        (steps.map segmentOf).flatMap Segment.marked := by
  induction h with
  | nil => exact ⟨[], [], [], rfl, List.not_mem_nil, fun before => by simp [piecesFrom], rfl⟩
  | @item c cs steps none _ ih =>
    have hc : '<' ∉ [c] := by simpa using Ne.symm (htagged.ne_of_not_opens none)
    obtain ⟨run, rest, more, rfl, hrun, hpieces, hmarks⟩ :=
      ih (htagged.of_append (a := [c]) (betweenTags_of_not_mem hc))
    refine ⟨c :: run, rest, more, rfl, ?_, fun before => ?_, ?_⟩
    · simpa [hrun] using hc
    · rw [← List.singleton_append, piecesFrom_text hc, hpieces]
      simp
    · have hlength : placeholderLength? (c :: run) = Option.none := by
        rw [Option.eq_none_iff_forall_ne_some]
        intro n hn
        obtain ⟨p, after, hsplit, hp, rfl⟩ := placeholderLength?_eq_some_iff.mp hn
        apply none p.length
        rw [← List.cons_append, hsplit, List.append_assoc]
        exact .placeholder hp
      simp [markFrom, hlength, hmarks, segmentOf, Segment.marked]
  | @found m cs steps begins _ ih =>
    rcases begins.isTag_or_isPlaceholder with htag | hp
    · obtain ⟨run, rest, more, rfl, hrun, hpieces, hmarks⟩ := ih (htagged.of_append htag.betweenTags)
      refine ⟨[], m ++ (run ++ rest), .tag m :: .text run :: more, rfl, List.not_mem_nil,
        fun before => ?_, ?_⟩
      · rw [piecesFrom_tag htag, pieces, hpieces]
        simp
      · simp [markFrom, Piece.marked, markText_of_not_mem hrun, hmarks, segmentOf_tag htag,
          Segment.marked]
    · obtain ⟨run, rest, more, rfl, hrun, hpieces, hmarks⟩ :=
        ih (htagged.of_append (betweenTags_of_not_mem hp.not_mem))
      refine ⟨m ++ run, rest, more, by simp, ?_, fun before => ?_, ?_⟩
      · simp [hp.not_mem, hrun]
      · rw [piecesFrom_text hp.not_mem, hpieces]
        simp
      · simp [markFrom_placeholder hp, hmarks, segmentOf_placeholder hp, Segment.marked]

theorem protect_eq_marked {cs : List Char} {steps : List (ScanStep Char)} (h : Scan Opens cs steps)
    (htagged : Tagged cs) : protect cs = (steps.map segmentOf).flatMap Segment.marked := by
  obtain ⟨run, rest, more, -, hrun, hpieces, hmarks⟩ := exists_pieces h htagged
  rw [protect_eq, pieces, hpieces, List.flatMap_cons, ← hmarks]
  simp [Piece.marked, markText_of_not_mem hrun]

/-! Where the segments are. -/

/-- A step of a scan leaves a place between tags. -/
theorem Tagged.step {cs : List Char} {s : ScanStep Char} {steps : List (ScanStep Char)}
    (h : Tagged cs) (hscan : Scan Opens cs (s :: steps)) : BetweenTags s.source := by
  cases hscan with
  | item none _ =>
    apply betweenTags_of_not_mem
    simpa [ScanStep.source] using Ne.symm (h.ne_of_not_opens none)
  | found begins _ =>
    rcases begins.isTag_or_isPlaceholder with htag | hp
    · exact htag.betweenTags
    · exact betweenTags_of_not_mem hp.not_mem

theorem Tagged.steps {cs : List Char} {past more : List (ScanStep Char)} (h : Tagged cs)
    (hscan : Scan Opens cs (past ++ more)) : BetweenTags (ScanStep.sources past) := by
  induction past generalizing cs with
  | nil => exact betweenTags_nil
  | cons s past ih =>
    have hstep := h.step hscan
    rw [ScanStep.sources_cons]
    apply hstep.append
    apply ih _ (Scan.drop [s] hscan)
    rw [← hscan.sources, List.cons_append, ScanStep.sources_cons] at h
    exact h.of_append hstep

theorem exists_step_of_at {steps : List (ScanStep Char)} {before : List Char} {segment : Segment}
    (h : At (steps.map segmentOf) before segment) : ∃ past s more, steps = past ++ s :: more ∧
      before = ScanStep.sources past ∧ segmentOf s = segment := by
  obtain ⟨past, more, hsteps, rfl⟩ := h
  obtain ⟨past, rest, rfl, rfl, hrest⟩ := List.map_eq_append_iff.mp hsteps
  obtain ⟨s, more, rfl, hs, -⟩ := List.map_eq_cons_iff.mp hrest
  exact ⟨past, s, more, rfl, sources_segmentOf past, hs⟩

theorem at_of_takes {cs before found : List Char} {steps : List (ScanStep Char)}
    (hscan : Scan Opens cs steps) (h : Takes Opens cs before found) :
    At (steps.map segmentOf) before (segmentOf (.found found)) := by
  obtain ⟨past, more, hscan', rfl⟩ := h
  obtain rfl := matching.scan_unique hscan hscan'
  exact ⟨past.map segmentOf, more.map segmentOf, by simp, (sources_segmentOf past).symm⟩

/-- The segments that get marks are the placeholders that the scan takes. -/
theorem at_wrapped_iff {cs before p : List Char} {steps : List (ScanStep Char)}
    (hscan : Scan Opens cs steps) :
    At (steps.map segmentOf) before (.wrapped p) ↔ Takes Opens cs before p ∧ IsPlaceholder p := by
  constructor
  · intro h
    obtain ⟨past, s, more, rfl, rfl, hs⟩ := exists_step_of_at h
    cases s with
    | item c => cases hs
    | found m =>
      rw [segmentOf] at hs
      split at hs
      · cases hs
      · rename_i hhead
        obtain rfl := Segment.wrapped.inj hs
        have htakes : Takes Opens cs (ScanStep.sources past) m := ⟨past, more, hscan, rfl⟩
        obtain ⟨after, -, hopens⟩ := htakes.split
        rcases hopens.isTag_or_isPlaceholder with ⟨name, rfl, -, -⟩ | hp
        · exact absurd rfl hhead
        · exact ⟨htakes, hp⟩
  · rintro ⟨htakes, hp⟩
    rw [← segmentOf_placeholder hp]
    exact at_of_takes hscan htakes

/-- What opens between tags is taken, or it is in a placeholder that began before. -/
theorem takes_or_in_placeholder {before m after : List Char} (h : Opens (m ++ after) m.length)
    (hbetween : BetweenTags before) : Takes Opens (before ++ (m ++ after)) before m ∨
      ∃ b front back rest, Takes Opens (before ++ (m ++ after)) b (front ++ back) ∧
        IsPlaceholder (front ++ back) ∧ before = b ++ front ∧ front ≠ [] ∧ back ≠ [] ∧
        m ++ after = back ++ rest := by
  obtain ⟨b, found, htakes, hle, hlt⟩ := matching.exists_takes before h
  obtain ⟨front, back, rest, rfl, rfl, hback, hafter, hfound⟩ := htakes.cut hle hlt
  by_cases hfront : front = []
  · subst hfront
    left
    rw [hafter] at h
    obtain ⟨rfl, -⟩ := List.append_inj hafter (matching.unique h hfound)
    simpa using htakes
  · right
    rcases hfound.isTag_or_isPlaceholder with htag | hp
    · exact absurd hbetween (htag.not_betweenTags hfront hback b)
    · exact ⟨b, front, back, rest, htakes, hp, rfl, hfront, hback, hafter⟩

theorem takes_tag {before tag after : List Char} (h : IsTag tag) (hbetween : BetweenTags before) :
    Takes Opens (before ++ (tag ++ after)) before tag := by
  rcases takes_or_in_placeholder (.tag h) hbetween with
    htakes | ⟨b, front, back, rest, -, hp, -, -, hback, hafter⟩
  · exact htakes
  · exfalso
    obtain ⟨name, rfl, -, -⟩ := h
    obtain ⟨c, back, rfl⟩ := List.exists_cons_of_ne_nil hback
    obtain ⟨rfl, -⟩ := List.cons.inj hafter
    exact hp.not_mem (by simp)

/-- Marks are put in and nothing else changes: markup falls into segments, one after the other, and
those that are wrapped get marks around them. Wrapped is what is a placeholder in the text between
tags and is not reached by one that was wrapped before it, and nothing else; each tag is a segment
that is kept. -/
theorem protect_marks {cs : List Char} (h : Tagged cs) : ∃ segments : List Segment,
    cs = segments.flatMap Segment.source ∧ protect cs = segments.flatMap Segment.marked ∧
      (∀ before p, At segments before (.wrapped p) ↔ InText cs before p ∧
        ∀ b q, At segments b (.wrapped q) → b.length < before.length →
          b.length + q.length ≤ before.length) ∧
      ∀ before tag after, cs = before ++ tag ++ after → IsTag tag → BetweenTags before →
        At segments before (.kept tag) := by
  obtain ⟨steps, hscan⟩ := matching.exists_scan cs
  refine ⟨steps.map segmentOf, ?_, protect_eq_marked hscan h, fun before p => ⟨fun hat => ?_, ?_⟩,
    ?_⟩
  · rw [sources_segmentOf, hscan.sources]
  · obtain ⟨htakes, hp⟩ := (at_wrapped_iff hscan).mp hat
    obtain ⟨after, hcs, -⟩ := htakes.split
    refine ⟨⟨⟨after, hcs⟩, hp, ?_⟩, fun b q hq hlt => ?_⟩
    · obtain ⟨past, more, hscan', rfl⟩ := htakes
      exact h.steps hscan'
    · rcases matching.takes_apart ((at_wrapped_iff hscan).mp hq).1 htakes with
        ⟨rfl, -⟩ | hbefore | hbehind
      · omega
      · exact hbefore
      · omega
  · rintro ⟨⟨⟨after, rfl⟩, hp, hbetween⟩, hfree⟩
    rw [List.append_assoc] at hscan
    rcases takes_or_in_placeholder (.placeholder hp) hbetween with
      htakes | ⟨b, front, back, rest, htakes, hfound, rfl, hfront, hback, -⟩
    · exact (at_wrapped_iff hscan).mpr ⟨htakes, hp⟩
    · exfalso
      have hends := hfree b (front ++ back) ((at_wrapped_iff hscan).mpr ⟨htakes, hfound⟩)
      have hpos := List.length_pos_iff.mpr hfront
      have hpos' := List.length_pos_iff.mpr hback
      simp only [List.length_append] at hends
      omega
  · rintro before tag after rfl htag hbetween
    rw [List.append_assoc] at hscan
    rw [← segmentOf_tag htag]
    exact at_of_takes hscan (takes_tag htag hbetween)

/-- In a tag nothing is wrapped. -/
theorem protect_marks_attribute :
    let text := "\x7bx\x7d".toList
    let tag := "<a b=\"\x7by\x7d\">".toList
    Tagged (text ++ tag) ∧ ∃ segments, text ++ tag = segments.flatMap Segment.source ∧
      protect (text ++ tag) = segments.flatMap Segment.marked ∧
      At segments [] (.wrapped text) ∧ At segments text (.kept tag) := by
  intro text tag
  have hname : ∀ c ∈ ['x'], isBraceChar c = true := List.forall_mem_singleton.mpr (by decide)
  have htext : IsPlaceholder text := .brace (List.cons_ne_nil 'x' []) hname
  have htag : IsTag tag := ⟨"a b=\"\x7by\x7d\"".toList, by decide, by decide, by decide⟩
  have hbetween := betweenTags_of_not_mem htext.not_mem
  have htagged := (tagged_of_not_mem htext.not_mem).append htag.tagged hbetween
  obtain ⟨segments, hsource, hmarked, hwrapped, hkept⟩ := protect_marks htagged
  refine ⟨htagged, segments, hsource, hmarked, ?_, ?_⟩
  · refine (hwrapped [] text).mpr ⟨⟨⟨tag, rfl⟩, htext, betweenTags_nil⟩, fun b q _ hlt => ?_⟩
    cases hlt
  · exact hkept text tag [] (by simp) htag hbetween

end Localization.Markup.Protection
