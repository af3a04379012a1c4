import TokenPriceAgg.Lib.PyText

/-!
# The header `If-None-Match` of token logos

`_if_none_match_matches` scans the header with an index.  The loop has a budget of turns: `ifNoneMatch_terminates` says
that one turn more than the text has characters is always enough, since every turn moves the index.

`TagList` is the grammar of the lists of entity tags, and `scan_tagList` what the loop returns on such a list.
-/

namespace TokenPriceAgg

/-! ### The scanner -/

/-- `value[index:]` starts with a character that ends the member there, or is empty. -/
def atMemberEnd (value : List Char) (index : Nat) : Bool := index = value.length || value[index]? = some ','

def skipCharacters (value : List Char) (index : Nat) (characters : List Char) : Nat :=
  index + ((value.drop index).takeWhile fun c => characters.contains c).length

def skipToComma (value : List Char) (index : Nat) : Nat :=
  index + ((value.drop index).takeWhile fun c => c ≠ ',').length

/-- `value.find(c, index)`. -/
def findFrom (value : List Char) (c : Char) (index : Nat) : Option Nat :=
  ((value.drop index).findIdx? fun d => d = c).map fun offset => index + offset

/-- `value[first:last]`. -/
def slice (value : List Char) (first last : Nat) : List Char := (value.drop first).take (last - first)

def blanks : List Char := [' ', '\t']

def separators : List Char := [' ', '\t', ',']

/-- The part of `_parse_etag_member` behind a weak prefix. -/
def parseOpaqueTag (value : List Char) (index : Nat) : Option (List Char) × Nat :=
  if value.length ≤ index ∨ value[index]? ≠ some '"' then (none, skipToComma value index)
  else
    match findFrom value '"' (index + 1) with
    | none => (none, value.length)
    | some endQuote =>
      let member := slice value (index + 1) endQuote
      let last := skipCharacters value (endQuote + 1) blanks
      if atMemberEnd value last then (some member, last) else (none, skipToComma value last)

def parseEtagMember (value : List Char) (index : Nat) : Option (List Char) × Nat :=
  if value[index]? = some '*' then
    let last := skipCharacters value (index + 1) blanks
    if atMemberEnd value last then (some ['*'], last) else (none, skipToComma value last)
  else parseOpaqueTag value (if ['W', '/'].isPrefixOf (value.drop index) then index + 2 else index)

/-- The loop of `_if_none_match_matches` from an index, for at most `turns` turns. -/
def scan (value contentHash : List Char) : Nat → Nat → Option Bool
  | 0, _ => none
  | turns + 1, index =>
    if index < value.length then
      let index := skipCharacters value index separators
      if value.length ≤ index then some false
      else
        let member := parseEtagMember value index
        if member.1 = some ['*'] ∨ member.1 = some contentHash then some true
        else scan value contentHash turns member.2
    else some false

def ifNoneMatchMatches (turns : Nat) (value : Option String) (contentHash : String) : Option Bool :=
  match value with
  | none => some false
  | some value => scan value.toList contentHash.toList turns 0

/-- The call returns `result`. -/
def IfNoneMatchReturns (value : Option String) (contentHash : String) (result : Bool) : Prop :=
  ∃ turns, ifNoneMatchMatches turns value contentHash = some result

/-! ### Positions

A position is described by the text behind it. -/

private theorem drop_takeWhile_length {value : List Char} {index : Nat} (p : Char → Bool) :
    value.drop (index + ((value.drop index).takeWhile p).length) = (value.drop index).dropWhile p := by
  have hdrop := @List.drop_left Char ((value.drop index).takeWhile p) ((value.drop index).dropWhile p)
  rw [List.takeWhile_append_dropWhile] at hdrop
  rw [← List.drop_drop]
  exact hdrop

private theorem drop_skipCharacters (value : List Char) (index : Nat) (characters : List Char) :
    value.drop (skipCharacters value index characters) =
      (value.drop index).dropWhile fun c => characters.contains c :=
  drop_takeWhile_length _

private theorem le_skipCharacters (value : List Char) (index : Nat) (characters : List Char) :
    index ≤ skipCharacters value index characters := Nat.le_add_right _ _

private theorem skipCharacters_le
    {value : List Char} {index : Nat} (h : index ≤ value.length) (characters : List Char) :
    skipCharacters value index characters ≤ value.length := by
  have hle := (List.takeWhile_sublist (l := value.drop index) fun c => characters.contains c).length_le
  rw [List.length_drop] at hle
  unfold skipCharacters
  omega

/-- What is skipped ends before another character. -/
private theorem skipCharacters_stops {value : List Char} {index : Nat} {characters : List Char} {c : Char}
    (h : value[skipCharacters value index characters]? = some c) : c ∉ characters := by
  rw [← List.head?_drop, drop_skipCharacters] at h
  have hnot := List.head?_dropWhile_not (fun c => characters.contains c) (value.drop index)
  rw [h] at hnot
  simpa using hnot

private theorem le_skipToComma (value : List Char) (index : Nat) :
    index ≤ skipToComma value index := Nat.le_add_right _ _

private theorem lt_skipToComma
    {value : List Char} {index : Nat} {c : Char} (h : value[index]? = some c) (hc : c ≠ ',') :
    index < skipToComma value index := by
  rw [← List.head?_drop] at h
  obtain ⟨rest, hrest⟩ := List.head?_eq_some_iff.1 h
  unfold skipToComma
  rw [hrest, List.takeWhile_cons_of_pos (by simpa using hc), List.length_cons]
  omega

/-! ### Every turn moves the index -/

private theorem le_findFrom
    {value : List Char} {c : Char} {index found : Nat} (h : findFrom value c index = some found) :
    index ≤ found := by
  obtain ⟨offset, -, rfl⟩ := Option.map_eq_some_iff.1 h
  exact Nat.le_add_right _ _

private theorem lt_parseOpaqueTag
    {value : List Char} {index : Nat} {c : Char} (h : value[index]? = some c) (hc : c ≠ ',') :
    index < (parseOpaqueTag value index).2 := by
  unfold parseOpaqueTag
  split
  · exact lt_skipToComma h hc
  · split
    · exact (List.getElem?_eq_some_iff.1 h).1
    · rename_i endQuote hquote
      have hfound := le_findFrom hquote
      have hskip := le_skipCharacters value (endQuote + 1) blanks
      have hcomma := le_skipToComma value (skipCharacters value (endQuote + 1) blanks)
      dsimp only
      split <;> dsimp only <;> omega

private theorem le_parseOpaqueTag (value : List Char) (index : Nat) : index ≤ (parseOpaqueTag value index).2 := by
  by_cases hc : value[index]? = none ∨ value[index]? = some ','
  · have hquote : value[index]? ≠ some '"' := by
      rcases hc with hc | hc
      · rw [hc]
        exact nofun
      · rw [hc]
        decide
    unfold parseOpaqueTag
    rw [if_pos (Or.inr hquote)]
    exact le_skipToComma value index
  · obtain ⟨hsome, hcomma⟩ := not_or.1 hc
    obtain ⟨c, hc⟩ := Option.ne_none_iff_exists'.1 hsome
    refine Nat.le_of_lt (lt_parseOpaqueTag hc ?_)
    rintro rfl
    exact hcomma hc

/-- A member takes at least one character. -/
private theorem lt_parseEtagMember
    {value : List Char} {index : Nat} {c : Char} (h : value[index]? = some c) (hc : c ≠ ',') :
    index < (parseEtagMember value index).2 := by
  unfold parseEtagMember
  split
  · have hskip := le_skipCharacters value (index + 1) blanks
    have hcomma := le_skipToComma value (skipCharacters value (index + 1) blanks)
    dsimp only
    split <;> dsimp only <;> omega
  · split
    · have hle := le_parseOpaqueTag value (index + 2)
      omega
    · exact lt_parseOpaqueTag h hc

/-- The loop ends: each turn leaves fewer characters. -/
private theorem scan_terminates
    (value contentHash : List Char) {turns index : Nat} (hturns : value.length - index < turns) :
    ∃ result, scan value contentHash turns index = some result := by
  induction turns generalizing index with
  | zero => omega
  | succ turns ih =>
    unfold scan
    split
    · dsimp only
      split
      · exact ⟨false, rfl⟩
      · rename_i hindex hskip
        split
        · exact ⟨true, rfl⟩
        · apply ih
          have hlt : skipCharacters value index separators < value.length := by omega
          have hget := List.getElem?_eq_getElem hlt
          have hstop := skipCharacters_stops hget
          have hcomma : value[skipCharacters value index separators] ≠ ',' := by
            intro hc
            rw [hc] at hstop
            exact hstop (by decide)
          have hmove := lt_parseEtagMember hget hcomma
          have hle := le_skipCharacters value index separators
          omega
    · exact ⟨false, rfl⟩

/-- More turns do not change the result. -/
private theorem scan_succ {value contentHash : List Char} {turns index : Nat} {result : Bool}
    (h : scan value contentHash turns index = some result) :
    scan value contentHash (turns + 1) index = some result := by
  induction turns generalizing index with
  | zero => cases h
  | succ turns ih =>
    unfold scan at h ⊢
    split
    · rename_i hindex
      rw [if_pos hindex] at h
      dsimp only at h ⊢
      split
      · rename_i hskip
        rw [if_pos hskip] at h
        exact h
      · rename_i hskip
        rw [if_neg hskip] at h
        split
        · rename_i hmember
          rw [if_pos hmember] at h
          exact h
        · rename_i hmember
          rw [if_neg hmember] at h
          exact ih h
    · rename_i hindex
      rw [if_neg hindex] at h
      exact h

private theorem scan_mono {value contentHash : List Char} {turns more index : Nat} {result : Bool} (hle : turns ≤ more)
    (h : scan value contentHash turns index = some result) : scan value contentHash more index = some result := by
  induction hle with
  | refl => exact h
  | step _ ih => exact scan_succ ih

/-! ### Lists of entity tags -/

structure EntityTag where
  weak : Bool
  opaqueTag : List Char
  noQuote : '"' ∉ opaqueTag

def EntityTag.render (tag : EntityTag) : List Char :=
  (if tag.weak then ['W', '/'] else []) ++ '"' :: tag.opaqueTag ++ ['"']

/-- Optional whitespace. -/
def Blanks (s : List Char) : Prop := ∀ c ∈ s, c ∈ blanks

/-- An element of a list: an entity tag with whitespace around it, or whitespace only. -/
inductive TagElement : List Char → List EntityTag → Prop
  | empty {s : List Char} (hs : Blanks s) : TagElement s []
  | tag {a b : List Char} (ha : Blanks a) (tag : EntityTag) (hb : Blanks b) : TagElement (a ++ tag.render ++ b) [tag]

/-- Elements with commas between them. -/
inductive TagList : List Char → List EntityTag → Prop
  | last {s : List Char} {tags : List EntityTag} (h : TagElement s tags) : TagList s tags
  | cons {s rest : List Char} {tags more : List EntityTag} (h : TagElement s tags) (hrest : TagList rest more) :
    TagList (s ++ ',' :: rest) (tags ++ more)

/-- What stands at the end of a member. -/
def MemberEnd (rest : List Char) : Prop := rest = [] ∨ ∃ more, rest = ',' :: more

private theorem atMemberEnd_of_drop {value rest : List Char} {index : Nat} (hle : index ≤ value.length)
    (hdrop : value.drop index = rest) (hend : MemberEnd rest) : atMemberEnd value index = true := by
  unfold atMemberEnd
  rcases hend with rfl | ⟨more, rfl⟩
  · have hlen := List.drop_eq_nil_iff.1 hdrop
    simp [Nat.le_antisymm hle hlen]
  · have hget : value[index]? = some ',' := by
      rw [← List.head?_drop, hdrop]
      rfl
    simp [hget]

/-- Characters of the set are skipped up to one that is not. -/
private theorem drop_skip_append {value skipped rest : List Char} {index : Nat} {characters : List Char}
    (hdrop : value.drop index = skipped ++ rest) (hskipped : ∀ c ∈ skipped, c ∈ characters)
    (hrest : ∀ c ∈ rest.head?, c ∉ characters) : value.drop (skipCharacters value index characters) = rest := by
  rw [drop_skipCharacters, hdrop, List.dropWhile_append_of_pos (by simpa using hskipped)]
  cases rest with
  | nil => rfl
  | cons c rest =>
    have hc : c ∉ characters := hrest c rfl
    exact List.dropWhile_cons_of_neg (by simpa using hc)

private theorem MemberEnd.head {rest : List Char} (h : MemberEnd rest) : ∀ c ∈ rest.head?, c ∉ blanks := by
  intro c hc
  rcases h with rfl | ⟨more, rfl⟩
  · cases hc
  · obtain rfl : ',' = c := Option.some.inj hc
    decide

/-- Behind its quote an opaque text is read up to the next quote. -/
private theorem parseOpaqueTag_render {value text blank rest : List Char} {index : Nat}
    (hdrop : value.drop index = '"' :: (text ++ '"' :: (blank ++ rest))) (htext : '"' ∉ text)
    (hblank : Blanks blank) (hend : MemberEnd rest) :
    ∃ last, parseOpaqueTag value index = (some text, last) ∧ value.drop last = rest := by
  have hget : value[index]? = some '"' := by
    rw [← List.head?_drop, hdrop]
    rfl
  have hindex : index < value.length := (List.getElem?_eq_some_iff.1 hget).1
  have hnext : value.drop (index + 1) = text ++ '"' :: (blank ++ rest) := by
    rw [← List.drop_drop, hdrop]
    rfl
  have hnone : text.findIdx? (fun d => d = '"') = none := by
    rw [List.findIdx?_eq_none_iff]
    intro d hd
    have hne : d ≠ '"' := by
      rintro rfl
      exact htext hd
    simpa using hne
  have hfind : findFrom value '"' (index + 1) = some (index + 1 + text.length) := by
    unfold findFrom
    rw [hnext, List.findIdx?_append, hnone, List.findIdx?_cons]
    simp
  have hslice : slice value (index + 1) (index + 1 + text.length) = text := by
    unfold slice
    rw [hnext, Nat.add_sub_cancel_left, List.take_left]
  have hbehind : value.drop (index + 1 + text.length + 1) = blank ++ rest := by
    rw [Nat.add_assoc (index + 1), ← List.drop_drop, hnext, ← List.drop_drop, List.drop_left]
    rfl
  have hlen : index + 1 + text.length + 1 ≤ value.length := by
    have hcount := congrArg List.length hnext
    rw [List.length_drop, List.length_append, List.length_cons] at hcount
    omega
  have hlast := drop_skip_append hbehind hblank hend.head
  have hatEnd := atMemberEnd_of_drop (skipCharacters_le hlen blanks) hlast hend
  refine ⟨skipCharacters value (index + 1 + text.length + 1) blanks, ?_, hlast⟩
  unfold parseOpaqueTag
  rw [if_neg (not_or.2 ⟨Nat.not_le.2 hindex, fun h => h hget⟩), hfind]
  dsimp only
  rw [if_pos hatEnd, hslice]

/-- An entity tag is read with its opaque text. -/
private theorem parseEtagMember_render {value blank rest : List Char} {index : Nat} {tag : EntityTag}
    (hdrop : value.drop index = tag.render ++ (blank ++ rest)) (hblank : Blanks blank) (hend : MemberEnd rest) :
    ∃ last, parseEtagMember value index = (some tag.opaqueTag, last) ∧ value.drop last = rest := by
  have hquoted : tag.render ++ (blank ++ rest) =
      (if tag.weak then ['W', '/'] else []) ++ '"' :: (tag.opaqueTag ++ '"' :: (blank ++ rest)) := by
    unfold EntityTag.render
    simp
  rw [hquoted] at hdrop
  cases hweak : tag.weak with
  | true =>
    rw [hweak] at hdrop
    have hget : value[index]? ≠ some '*' := by
      rw [← List.head?_drop, hdrop]
      simp
    have hprefix : ['W', '/'].isPrefixOf (value.drop index) = true := by
      rw [hdrop]
      simp
    have hbehind : value.drop (index + 2) = '"' :: (tag.opaqueTag ++ '"' :: (blank ++ rest)) := by
      rw [← List.drop_drop, hdrop]
      rfl
    unfold parseEtagMember
    rw [if_neg hget, if_pos hprefix]
    exact parseOpaqueTag_render hbehind tag.noQuote hblank hend
  | false =>
    rw [hweak] at hdrop
    have hget : value[index]? ≠ some '*' := by
      rw [← List.head?_drop, hdrop]
      simp
    have hprefix : ¬ ['W', '/'].isPrefixOf (value.drop index) = true := by
      rw [hdrop]
      simp
    unfold parseEtagMember
    rw [if_neg hget, if_neg hprefix]
    exact parseOpaqueTag_render hdrop tag.noQuote hblank hend

/-- The tag is taken for a match. -/
def EntityTag.Hits (tag : EntityTag) (contentHash : List Char) : Prop :=
  tag.opaqueTag = ['*'] ∨ tag.opaqueTag = contentHash

instance (tag : EntityTag) (contentHash : List Char) : Decidable (tag.Hits contentHash) :=
  inferInstanceAs (Decidable (_ ∨ _))

private theorem EntityTag.head?_render (tag : EntityTag) (rest : List Char) :
    ∀ c ∈ (tag.render ++ rest).head?, c ∉ separators := by
  intro c hc
  unfold EntityTag.render at hc
  cases hweak : tag.weak with
  | true =>
    rw [hweak] at hc
    obtain rfl : 'W' = c := Option.some.inj hc
    decide
  | false =>
    rw [hweak] at hc
    obtain rfl : '"' = c := Option.some.inj hc
    decide

private theorem Blanks.separators {s : List Char} (h : Blanks s) : ∀ c ∈ s, c ∈ separators := by
  intro c hc
  have hmem := h c hc
  unfold blanks at hmem
  unfold TokenPriceAgg.separators
  simp only [List.mem_cons, List.not_mem_nil, or_false] at hmem ⊢
  exact hmem.imp_right Or.inl

/-- At separators only, the loop ends without a match. -/
private theorem scan_separators {value contentHash skipped : List Char} {turns index : Nat}
    (hdrop : value.drop index = skipped) (hskipped : ∀ c ∈ skipped, c ∈ separators) :
    scan value contentHash (turns + 1) index = some false := by
  unfold scan
  split
  · have hend : value.drop (skipCharacters value index separators) = [] := by
      rw [← List.append_nil skipped] at hdrop
      exact drop_skip_append hdrop hskipped nofun
    dsimp only
    rw [if_pos (List.drop_eq_nil_iff.1 hend)]
  · rfl

/-- At a tag behind separators, the loop stops with a match or goes on behind the tag. -/
private theorem scan_tag (contentHash : List Char) (turns : Nat) {value skipped blank rest : List Char} {index : Nat}
    {tag : EntityTag}
    (hdrop : value.drop index = skipped ++ (tag.render ++ (blank ++ rest)))
    (hskipped : ∀ c ∈ skipped, c ∈ separators) (hblank : Blanks blank) (hend : MemberEnd rest) :
    ∃ next, value.drop next = rest ∧ index < next ∧ index < value.length ∧
      scan value contentHash (turns + 1) index =
        if tag.Hits contentHash then some true else scan value contentHash turns next := by
  have hstart := drop_skip_append hdrop hskipped (tag.head?_render (blank ++ rest))
  have hle := le_skipCharacters value index separators
  obtain ⟨last, hparse, hlast⟩ := parseEtagMember_render hstart hblank hend
  have hne : tag.render ++ (blank ++ rest) ≠ [] := by
    unfold EntityTag.render
    simp
  obtain ⟨c, tail, hcons⟩ := List.exists_cons_of_ne_nil hne
  have hget : value[skipCharacters value index separators]? = some c := by
    rw [← List.head?_drop, hstart, hcons]
    rfl
  have hcomma : c ≠ ',' := by
    have hnot := tag.head?_render (blank ++ rest) c (by rw [hcons]; rfl)
    rintro rfl
    exact hnot (by decide)
  have hmove := lt_parseEtagMember hget hcomma
  rw [hparse] at hmove
  have hlt : skipCharacters value index separators < value.length := (List.getElem?_eq_some_iff.1 hget).1
  refine ⟨last, hlast, Nat.lt_of_le_of_lt hle hmove, Nat.lt_of_le_of_lt hle hlt, ?_⟩
  conv => lhs; unfold scan
  rw [if_pos (Nat.lt_of_le_of_lt hle hlt)]
  dsimp only
  rw [if_neg (Nat.not_le.2 hlt), hparse]
  simp only [Option.some.injEq]
  rfl

/-- On a list of entity tags the loop says whether one of them is taken for a match. -/
private theorem scan_tagList {value contentHash s : List Char} {tags : List EntityTag} (hlist : TagList s tags) :
    ∀ {skipped : List Char} {turns index : Nat}, value.drop index = skipped ++ s →
      (∀ c ∈ skipped, c ∈ separators) → value.length - index < turns →
      scan value contentHash turns index = some (tags.any fun tag => tag.Hits contentHash) := by
  induction hlist with
  | last h =>
    intro skipped turns index hdrop hskipped hturns
    obtain ⟨turns, rfl⟩ := Nat.exists_eq_add_one_of_ne_zero (Nat.ne_of_gt (Nat.zero_lt_of_lt hturns))
    cases h with
    | empty hs =>
      have hall : ∀ c ∈ skipped ++ _, c ∈ separators :=
        fun c hc => (List.mem_append.1 hc).elim (hskipped c) (hs.separators c)
      exact scan_separators hdrop hall
    | @tag a b ha tag hb =>
      have hdrop' : value.drop index = (skipped ++ a) ++ (tag.render ++ (b ++ [])) := by
        rw [hdrop]
        simp
      have hall : ∀ c ∈ skipped ++ a, c ∈ separators :=
        fun c hc => (List.mem_append.1 hc).elim (hskipped c) (ha.separators c)
      -- the last tag, behind the separators; after it only whitespace is left
      obtain ⟨next, hnext, hmove, hlt, hscan⟩ := scan_tag contentHash turns hdrop' hall hb (Or.inl rfl)
      obtain ⟨turns, rfl⟩ := Nat.exists_eq_add_one_of_ne_zero (n := turns) (by omega)
      rw [hscan, scan_separators hnext nofun, List.any_cons, List.any_nil, Bool.or_false]
      split
      · rename_i hhit
        rw [decide_eq_true hhit]
      · rename_i hhit
        rw [decide_eq_false hhit]
  | @cons s rest tags more h hrest ih =>
    intro skipped turns index hdrop hskipped hturns
    cases h with
    | empty hs =>
      -- the comma is one more separator before the rest of the list
      have hdrop' : value.drop index = (skipped ++ s ++ [',']) ++ rest := by
        rw [hdrop]
        simp
      have hall : ∀ c ∈ skipped ++ s ++ [','], c ∈ separators := by
        intro c hc
        rcases List.mem_append.1 hc with hc | hc
        · exact (List.mem_append.1 hc).elim (hskipped c) (hs.separators c)
        · rw [List.mem_singleton.1 hc]
          decide
      exact ih hdrop' hall hturns
    | @tag a b ha tag hb =>
      obtain ⟨turns, rfl⟩ := Nat.exists_eq_add_one_of_ne_zero (Nat.ne_of_gt (Nat.zero_lt_of_lt hturns))
      have hdrop' : value.drop index = (skipped ++ a) ++ (tag.render ++ (b ++ ',' :: rest)) := by
        rw [hdrop]
        simp
      have hall : ∀ c ∈ skipped ++ a, c ∈ separators :=
        fun c hc => (List.mem_append.1 hc).elim (hskipped c) (ha.separators c)
      obtain ⟨next, hnext, hmove, hlt, hscan⟩ := scan_tag contentHash turns hdrop' hall hb (Or.inr ⟨rest, rfl⟩)
      have hcomma : ∀ c ∈ [','], c ∈ separators := by decide
      have hnext' : value.drop next = [','] ++ rest := hnext
      rw [hscan, ih hnext' hcomma (by omega), List.singleton_append, List.any_cons]
      split
      · rename_i hhit
        rw [decide_eq_true hhit, Bool.true_or]
      · rename_i hhit
        rw [decide_eq_false hhit, Bool.false_or]

/-! ### Well-formed headers -/

/-- What a header asks for: any representation, or one of those with the given tags. -/
inductive IfNoneMatch
  | any
  | oneOf (tags : List EntityTag)

inductive ReadsAs : List Char → IfNoneMatch → Prop
  | any {a b : List Char} (ha : Blanks a) (hb : Blanks b) : ReadsAs (a ++ '*' :: b) .any
  | oneOf {s : List Char} {tags : List EntityTag} (h : TagList s tags) : ReadsAs s (.oneOf tags)

/-- The header names the representation with this hash. -/
def IfNoneMatch.Names (contentHash : List Char) : IfNoneMatch → Prop
  | .any => True
  | .oneOf tags => ∃ tag ∈ tags, tag.opaqueTag = contentHash

/-- Some tag quotes the character of the wildcard. -/
def IfNoneMatch.QuotesWildcard : IfNoneMatch → Prop
  | .any => False
  | .oneOf tags => ∃ tag ∈ tags, tag.opaqueTag = ['*']

private theorem scan_any {a b contentHash : List Char} (ha : Blanks a) (hb : Blanks b) (turns : Nat) :
    scan (a ++ '*' :: b) contentHash (turns + 1) 0 = some true := by
  have hstar : ∀ c ∈ ('*' :: b).head?, c ∉ separators := by
    intro c hc
    obtain rfl : '*' = c := Option.some.inj hc
    decide
  have hstart : (a ++ '*' :: b).drop (skipCharacters (a ++ '*' :: b) 0 separators) = '*' :: b :=
    drop_skip_append rfl ha.separators hstar
  have hget : (a ++ '*' :: b)[skipCharacters (a ++ '*' :: b) 0 separators]? = some '*' := by
    rw [← List.head?_drop, hstart]
    rfl
  have hlt := (List.getElem?_eq_some_iff.1 hget).1
  have hbehind : (a ++ '*' :: b).drop (skipCharacters (a ++ '*' :: b) 0 separators + 1) = b ++ [] := by
    rw [← List.drop_drop, hstart, List.append_nil]
    rfl
  have hlast := drop_skip_append hbehind hb nofun
  have hatEnd := atMemberEnd_of_drop (skipCharacters_le hlt blanks) hlast (Or.inl rfl)
  have hparse : (parseEtagMember (a ++ '*' :: b) (skipCharacters (a ++ '*' :: b) 0 separators)).1 = some ['*'] := by
    unfold parseEtagMember
    rw [if_pos hget]
    dsimp only
    rw [if_pos hatEnd]
  unfold scan
  rw [if_pos (Nat.zero_lt_of_lt hlt)]
  dsimp only
  rw [if_neg (Nat.not_le.2 hlt), if_pos (Or.inl hparse)]

/-- On a well-formed header the loop matches what the header names, and each quoted wildcard. -/
private theorem scan_readsAs
    {value : List Char} {header : IfNoneMatch} (h : ReadsAs value header) (contentHash : List Char) :
    ∃ result, scan value contentHash (value.length + 1) 0 = some result ∧
      (result = true ↔ header.Names contentHash ∨ header.QuotesWildcard) := by
  cases h with
  | any ha hb => exact ⟨true, scan_any ha hb _, by simp [IfNoneMatch.Names]⟩
  | @oneOf _ tags hlist =>
    have hdrop : value.drop 0 = [] ++ value := rfl
    have hscan : scan value contentHash (value.length + 1) 0 = some (tags.any fun tag => tag.Hits contentHash) :=
      scan_tagList hlist hdrop nofun (Nat.lt_succ_self _)
    refine ⟨_, hscan, ?_⟩
    rw [List.any_eq_true]
    constructor
    · rintro ⟨tag, htag, hhit⟩
      rcases of_decide_eq_true hhit with hstar | hhash
      · exact Or.inr ⟨tag, htag, hstar⟩
      · exact Or.inl ⟨tag, htag, hhash⟩
    · rintro (⟨tag, htag, hhash⟩ | ⟨tag, htag, hstar⟩)
      · exact ⟨tag, htag, decide_eq_true (Or.inr hhash)⟩
      · exact ⟨tag, htag, decide_eq_true (Or.inl hstar)⟩

/-- The call returns, and always the same. -/
private theorem ifNoneMatch_terminates (value : Option String) (contentHash : String) :
    ∃ result, IfNoneMatchReturns value contentHash result ∧
      ∀ other, IfNoneMatchReturns value contentHash other → other = result := by
  cases value with
  | none =>
    refine ⟨false, ⟨0, rfl⟩, ?_⟩
    rintro other ⟨turns, hother⟩
    exact (Option.some.inj hother).symm
  | some value =>
    have hturns : value.toList.length - 0 < value.toList.length + 1 := Nat.lt_succ_self _
    obtain ⟨result, hresult⟩ := scan_terminates value.toList contentHash.toList hturns
    refine ⟨result, ⟨value.toList.length + 1, hresult⟩, ?_⟩
    rintro other ⟨turns, hother⟩
    rcases Nat.le_total turns (value.toList.length + 1) with hle | hle
    · have hsame := scan_mono hle hother
      rw [hresult] at hsame
      exact (Option.some.inj hsame).symm
    · have hsame := scan_mono hle hresult
      exact Option.some.inj (hother.symm.trans hsame)

/-- The call returns `True` exactly if the header names the hash. -/
def MatchesExactly (value contentHash : String) (header : IfNoneMatch) : Prop :=
  IfNoneMatchReturns (some value) contentHash true ↔ header.Names contentHash.toList

/-- Every call ends, and on a well-formed header it returns what the header says unless only the wildcard, quoted as
an entity tag, makes it match. -/
theorem ifNoneMatch_matches_iff (contentHash : String) :
    (∀ value, ∃ result, IfNoneMatchReturns value contentHash result ∧
      ∀ other, IfNoneMatchReturns value contentHash other → other = result) ∧
    ∀ (value : String) (header : IfNoneMatch), ReadsAs value.toList header →
      (MatchesExactly value contentHash header ↔ (header.Names contentHash.toList ∨ ¬ header.QuotesWildcard)) := by
  refine ⟨fun value => ifNoneMatch_terminates value contentHash, ?_⟩
  intro value header hread
  obtain ⟨result, hscan, hresult⟩ := scan_readsAs hread contentHash.toList
  have hreturns : IfNoneMatchReturns (some value) contentHash true ↔ result = true := by
    constructor
    · intro h
      obtain ⟨only, -, honly⟩ := ifNoneMatch_terminates (some value) contentHash
      exact (honly result ⟨value.toList.length + 1, hscan⟩).trans (honly true h).symm
    · rintro rfl
      exact ⟨value.toList.length + 1, hscan⟩
  unfold MatchesExactly
  rw [hreturns, hresult]
  by_cases hnames : header.Names contentHash.toList
  · simp [hnames]
  · simp [hnames]

/-! A list with a weak tag, an empty element and a comma inside a tag; and the wildcard between quotes. -/

def Example.contentHash : String := "9f86d081884c7d659a2feaa0c55ad015a3bf4f1b2b0b822cd15d6c15b0f00a08"

theorem ifNoneMatch_weak_list :
    MatchesExactly "W/\"a,b\" , " Example.contentHash (.oneOf [⟨true, ['a', ',', 'b'], by decide⟩]) := by
  refine ((ifNoneMatch_matches_iff Example.contentHash).2 _ _ ?_).2 (Or.inr ?_)
  · exact .oneOf (.cons
      (.tag (a := []) (b := [' ']) nofun ⟨true, ['a', ',', 'b'], by decide⟩ (by unfold Blanks; decide))
      (.last (.empty (s := [' ']) (by unfold Blanks; decide))))
  · rintro ⟨tag, htag, hstar⟩
    rw [List.mem_singleton.1 htag] at hstar
    exact absurd hstar (by decide)

theorem ifNoneMatch_quoted_wildcard :
    ReadsAs "\"*\"".toList (.oneOf [⟨false, ['*'], by decide⟩]) ∧
      ¬ MatchesExactly "\"*\"" Example.contentHash (.oneOf [⟨false, ['*'], by decide⟩]) := by
  constructor
  · exact .oneOf (.last (.tag (a := []) (b := []) nofun ⟨false, ['*'], by decide⟩ nofun))
  · intro h
    have hreturns : IfNoneMatchReturns (some "\"*\"") Example.contentHash true := ⟨1, by decide⟩
    obtain ⟨tag, htag, hhash⟩ := h.1 hreturns
    rw [List.mem_singleton.1 htag] at hhash
    exact absurd hhash (by decide)

end TokenPriceAgg
