import Mathlib.Tactic.SplitIfs
import TaggedUnion.Path

/-!
# The directories above a path

A path is the start of another one if it is the whole of it or is followed there by a `/`. Every
path in `upward path` is a start of `path`, and for a file in a directory, those in the upward list
of its parent are starts of that directory. So nothing beside the way to a file is ever looked at.

The names of a path are those of the next path above it and one more. The directory of a file has no
empty component at its end, so it is the first in its own upward list unless it is the root or `.`.

A proper name that is joined to a path is one name more, and nothing is above it that is not above
the path.
-/

namespace TaggedUnion.Path

/-- The first path is a start of the second, cut before a `/` or at its end. -/
def Above (p q : String) : Prop :=
  ∃ rest, q.toList = p.toList ++ rest ∧ (rest = [] ∨ rest.head? = some '/')

theorem components_ne_nil (cs : List Char) : components cs ≠ [] := by
  cases cs with
  | nil => simp [components]
  | cons c cs =>
      rw [components]
      split_ifs
      · simp
      · split <;> simp

theorem intercalate_components (cs : List Char) : ['/'].intercalate (components cs) = cs := by
  induction cs with
  | nil => simp [components]
  | cons c cs ih =>
      rw [components]
      split_ifs with hc
      · rw [List.intercalate_cons_of_ne_nil (components_ne_nil cs), ih, hc]
        rfl
      · cases hcs : components cs with
        | nil => exact absurd hcs (components_ne_nil cs)
        | cons p ps =>
            rw [hcs] at ih
            dsimp only
            rw [List.intercalate_cons_cons_left, ih]

theorem intercalate_append {xs ys : List (List Char)} (hxs : xs ≠ []) (hys : ys ≠ []) :
    ['/'].intercalate (xs ++ ys) = ['/'].intercalate xs ++ '/' :: ['/'].intercalate ys := by
  induction xs with
  | nil => exact absurd rfl hxs
  | cons x xs ih =>
      by_cases hnil : xs = []
      · subst hnil
        simp [List.intercalate_cons_of_ne_nil hys]
      · rw [List.cons_append, List.intercalate_cons_of_ne_nil (by simp [hnil]), ih hnil,
          List.intercalate_cons_of_ne_nil hnil]
        simp

/-- A path is its start and its components. -/
theorem start_append_components (cs : List Char) :
    (parts cs).start ++ ['/'].intercalate (parts cs).components = cs := by
  unfold parts
  split <;> simp [intercalate_components]

theorem upward_ofList_start (cs : List Char) : upward (String.ofList (parts cs).start) = [] := by
  unfold parts
  split <;> dsimp only <;> decide

/-- Cutting components off the end of a path gives a path above it. -/
theorem ofReversed_append {dropped kept : List (List Char)} (start : List Char)
    (hdropped : dropped ≠ []) (hkept : kept ≠ []) :
    ∃ rest, (ofReversed start (dropped ++ kept)).toList =
      (ofReversed start kept).toList ++ '/' :: rest := by
  refine ⟨['/'].intercalate dropped.reverse, ?_⟩
  unfold ofReversed
  rw [List.reverse_append, intercalate_append (by simpa using hkept) (by simpa using hdropped)]
  simp

theorem mem_upwardFrom {start : List Char} {reversed : List (List Char)} {p : String}
    (h : p ∈ upwardFrom start reversed) :
    ∃ dropped kept, reversed = dropped ++ kept ∧ kept ≠ [] ∧ p = ofReversed start kept := by
  induction reversed with
  | nil => simp [upwardFrom] at h
  | cons c above ih =>
      rw [upwardFrom] at h
      split_ifs at h with hidle
      · obtain ⟨dropped, kept, rfl, hkept, hp⟩ := ih h
        exact ⟨c :: dropped, kept, rfl, hkept, hp⟩
      · rcases List.mem_cons.mp h with hp | hp
        · exact ⟨[], c :: above, rfl, by simp, hp⟩
        · obtain ⟨dropped, kept, rfl, hkept, hp⟩ := ih hp
          exact ⟨c :: dropped, kept, rfl, hkept, hp⟩

theorem ofReversed_parts (path : String) :
    ofReversed (parts path.toList).start (parts path.toList).components.reverse = path := by
  unfold ofReversed
  rw [List.reverse_reverse, start_append_components, String.ofList_toList]

theorem above_of_mem_upward {p q : String} (h : p ∈ upward q) : Above p q := by
  obtain ⟨dropped, kept, hsplit, hkept, hp⟩ := mem_upwardFrom h
  have hq := ofReversed_parts q
  rw [hsplit] at hq
  by_cases hdropped : dropped = []
  · subst hdropped
    rw [List.nil_append, ← hp] at hq
    exact ⟨[], by simp [hq], .inl rfl⟩
  · obtain ⟨rest, hrest⟩ := ofReversed_append (parts q.toList).start hdropped hkept
    rw [hq, ← hp] at hrest
    exact ⟨_, hrest, .inr rfl⟩

/-- The directory of a file is properly above it, or there is nothing above the file to be made. -/
theorem directory_cases (path : String) :
    upward (directory path) = [] ∨
      ∃ rest, path.toList = (directory path).toList ++ '/' :: rest := by
  have hdot : upward "." = [] := by decide
  unfold directory parent?
  dsimp only
  cases hdrop : (parts path.toList).components.reverse.dropWhile isIdle with
  | nil =>
      dsimp only
      split_ifs
      · exact .inl hdot
      · exact .inl hdot
  | cons last above =>
      dsimp only
      split_ifs with hempty
      · exact .inl hdot
      · obtain ⟨idle, hidle⟩ : (last :: above) <:+ (parts path.toList).components.reverse :=
          hdrop ▸ List.dropWhile_suffix isIdle
        obtain ⟨more, hmore⟩ : above.dropWhile isIdle <:+ above := List.dropWhile_suffix isIdle
        by_cases hkept : above.dropWhile isIdle = []
        · rw [hkept]
          simpa [ofReversed] using Or.inl (upward_ofList_start path.toList)
        · have hcut : idle ++ last :: more ≠ [] := by simp
          obtain ⟨rest, hrest⟩ := ofReversed_append (parts path.toList).start hcut hkept
          have hall : (idle ++ last :: more) ++ above.dropWhile isIdle =
              (parts path.toList).components.reverse := by
            rw [← hidle, List.append_assoc, List.cons_append, hmore]
          rw [hall, ofReversed_parts] at hrest
          exact .inr ⟨rest, hrest⟩

/-- Joining a name to a path puts at most a `/` between them. -/
theorem joinChars_cases (left : List Char) {right : List Char} (h : '/' ∉ right) :
    ∃ between, (between = [] ∨ between = ['/']) ∧
      joinChars left right = left ++ (between ++ right) := by
  have hhead : right.head? ≠ some '/' := fun hc => h (List.mem_of_mem_head? hc)
  unfold joinChars
  rw [if_neg hhead]
  split_ifs
  · exact ⟨[], .inl rfl, rfl⟩
  · exact ⟨['/'], .inr rfl, rfl⟩

/-- What a name was joined to is the only place for a `/` before it. -/
theorem above_of_join_eq {p dir name : String} {rest : List Char} (hname : '/' ∉ name.toList)
    (h : (join dir name).toList = p.toList ++ '/' :: rest) : Above p dir := by
  obtain ⟨between, hbetween, hjoin⟩ := joinChars_cases dir.toList hname
  rw [join, String.toList_ofList, hjoin, List.append_eq_append_iff] at h
  rcases h with ⟨extra, hp, hextra⟩ | ⟨extra, hdir, hextra⟩
  · -- the `/` after `p` would stand behind the directory, so it is the one before the name
    cases extra with
    | nil => exact ⟨[], by simp [hp], .inl rfl⟩
    | cons c extra =>
        rcases hbetween with rfl | rfl
        · rw [List.nil_append] at hextra
          simp [hextra] at hname
        · rw [List.singleton_append, List.cons_append, List.cons.injEq] at hextra
          simp [hextra.2] at hname
  · cases extra with
    | nil => exact ⟨[], by simp [hdir], .inl rfl⟩
    | cons c extra =>
        rw [List.cons_append, List.cons.injEq] at hextra
        exact ⟨c :: extra, hdir, .inr (by simp [← hextra.1])⟩

/-- What is made for a file is above the directory it was put in by name. -/
theorem above_of_mem_upward_directory {p dir name : String} (hname : '/' ∉ name.toList)
    (h : p ∈ upward (directory (join dir name))) : Above p dir := by
  rcases directory_cases (join dir name) with hnone | ⟨rest, hrest⟩
  · simp [hnone] at h
  · obtain ⟨way, hway, hcut⟩ := above_of_mem_upward h
    rw [hway] at hrest
    rcases hcut with rfl | hhead
    · rw [List.append_nil] at hrest
      exact above_of_join_eq hname hrest
    · obtain ⟨more, rfl⟩ := List.head?_eq_some_iff.mp hhead
      rw [List.append_assoc, List.cons_append] at hrest
      exact above_of_join_eq hname hrest

theorem components_append_slash (a b : List Char) :
    components (a ++ '/' :: b) = components a ++ components b := by
  induction a with
  | nil => simp [components]
  | cons c a ih =>
      obtain ⟨p, ps, hp⟩ := List.exists_cons_of_ne_nil (components_ne_nil a)
      rw [List.cons_append, components, components, ih, hp]
      split_ifs <;> rfl

theorem components_of_notMem {cs : List Char} (h : '/' ∉ cs) : components cs = [cs] := by
  induction cs with
  | nil => rfl
  | cons c cs ih =>
      have hc : c ≠ '/' := fun hc => h (by simp [hc])
      rw [components, if_neg hc, ih fun hmem => h (by simp [hmem])]

theorem slash_notMem_of_mem_components {cs p : List Char} (h : p ∈ components cs) : '/' ∉ p := by
  induction cs generalizing p with
  | nil =>
      obtain rfl := List.mem_singleton.mp h
      simp
  | cons c cs ih =>
      obtain ⟨q, qs, hq⟩ := List.exists_cons_of_ne_nil (components_ne_nil cs)
      rw [components, hq] at h
      rw [hq] at ih
      split_ifs at h with hc
      · rcases List.mem_cons.mp h with rfl | h
        · simp
        · exact ih h
      · rcases List.mem_cons.mp h with rfl | h
        · have hrest := ih (by simp : q ∈ q :: qs)
          simpa [Ne.symm hc] using hrest
        · exact ih (by simp [h])

theorem names_append_slash {p q : String} {rest : List Char}
    (h : q.toList = p.toList ++ '/' :: rest) : names q = names p ++ names (String.ofList rest) := by
  simp [names, h, components_append_slash]

/-- The start and the reversed components of a path, or of a directory above it. -/
structure Joined (start : List Char) (reversed : List (List Char)) : Prop where
  start_mem : start ∈ [[], ['/'], ['.']]
  slash_notMem : ∀ c ∈ reversed, '/' ∉ c
  /-- A dot at the start is a component of its own. -/
  dot : start = ['.'] → ∀ c ∈ reversed.getLast?, c = []

theorem joined_parts (cs : List Char) : Joined (parts cs).start (parts cs).components.reverse := by
  have hslash : ∀ r : List Char, ∀ c ∈ (components r).reverse, '/' ∉ c := fun r c hc =>
    slash_notMem_of_mem_components (List.mem_reverse.mp hc)
  unfold parts
  split
  · exact ⟨by simp, hslash _, by simp⟩
  · exact ⟨by simp, by simp, by simp⟩
  · exact ⟨by simp, hslash _, by simp [components]⟩
  · exact ⟨by simp, hslash _, by simp⟩

theorem Joined.of_suffix {start : List Char} {kept reversed : List (List Char)}
    (h : Joined start reversed) (hkept : kept <:+ reversed) : Joined start kept := by
  refine ⟨h.start_mem, fun c hc => h.slash_notMem c (hkept.mem hc), ?_⟩
  intro hdot c hc
  obtain ⟨dropped, rfl⟩ := hkept
  apply h.dot hdot c
  rw [List.getLast?_append, Option.mem_def.mp hc]
  rfl

theorem names_ofReversed_nil {start : List Char} (h : start ∈ [[], ['/'], ['.']]) :
    ∀ name ∈ names (ofReversed start []), name = "." := by
  revert start
  decide

theorem toList_ofReversed_cons (start c : List Char) {above : List (List Char)}
    (h : above ≠ []) : (ofReversed start (c :: above)).toList =
      (ofReversed start above).toList ++ '/' :: c := by
  unfold ofReversed
  rw [List.reverse_cons, intercalate_append (by simpa using h) (by simp)]
  simp

theorem names_ofReversed_cons {start c : List Char} {above : List (List Char)}
    (h : Joined start (c :: above)) :
    names (ofReversed start (c :: above)) =
      names (ofReversed start above) ++ if c = [] then [] else [String.ofList c] := by
  have hc : components c = [c] := components_of_notMem (h.slash_notMem c (by simp))
  have hlast : names (String.ofList c) = if c = [] then [] else [String.ofList c] := by
    rw [names, String.toList_ofList, hc]
    split_ifs with hnil <;> simp [hnil]
  by_cases habove : above = []
  · subst habove
    have hstart := h.start_mem
    simp only [List.mem_cons, List.not_mem_nil, or_false] at hstart
    rcases hstart with rfl | rfl | rfl
    · have hnone : names (ofReversed [] []) = [] := by decide
      rw [hnone, ← hlast]
      simp [ofReversed]
    · have hroot : (ofReversed ['/'] [c]).toList = "".toList ++ '/' :: c := by simp [ofReversed]
      rw [names_append_slash hroot, hlast]
      rfl
    · obtain rfl : c = [] := h.dot rfl c rfl
      rfl
  · rw [names_append_slash (toList_ofReversed_cons start c habove), hlast]

theorem ofReversed_ne_empty {start c : List Char} {above : List (List Char)}
    (h : Joined start (c :: above)) (hc : c ≠ []) : ofReversed start (c :: above) ≠ "" := by
  intro hempty
  have hnames := names_ofReversed_cons h
  rw [hempty, if_neg hc] at hnames
  exact List.append_ne_nil_of_right_ne_nil _ (by simp) hnames.symm

theorem ne_empty_of_mem_upwardFrom {start : List Char} {reversed : List (List Char)} {p : String}
    (h : Joined start reversed) (hp : p ∈ upwardFrom start reversed) : p ≠ "" := by
  induction reversed with
  | nil => simp [upwardFrom] at hp
  | cons c above ih =>
      have habove := h.of_suffix (List.suffix_cons c above)
      rw [upwardFrom] at hp
      split_ifs at hp with hidle
      · exact ih habove hp
      · rcases List.mem_cons.mp hp with rfl | hp
        · apply ofReversed_ne_empty h
          rintro rfl
          exact hidle rfl
        · exact ih habove hp

/-- What leads nowhere at the end of a path has no names but dots. -/
theorem names_dropWhile_isIdle {start : List Char} {reversed : List (List Char)}
    (h : Joined start reversed) :
    ∃ dots, (∀ name ∈ dots, name = ".") ∧ names (ofReversed start reversed) =
      names (ofReversed start (reversed.dropWhile isIdle)) ++ dots := by
  induction reversed with
  | nil => exact ⟨[], by simp, by simp⟩
  | cons c above ih =>
      cases hidle : isIdle c with
      | false => exact ⟨[], by simp, by simp [hidle]⟩
      | true =>
          obtain ⟨dots, hdots, hnames⟩ := ih (h.of_suffix (List.suffix_cons c above))
          have hc : c = [] ∨ c = ['.'] := by simpa [isIdle] using hidle
          refine ⟨dots ++ if c = [] then [] else [String.ofList c], ?_, ?_⟩
          · intro name hname
            rcases List.mem_append.mp hname with hname | hname
            · exact hdots name hname
            · rcases hc with rfl | rfl
              · simp at hname
              · simpa using hname
          · rw [names_ofReversed_cons h, hnames, List.dropWhile_cons_of_pos hidle,
              List.append_assoc]

/-- A path whose last name is no dot, with no `/` behind it, ends in a proper component. -/
theorem exists_proper {path last : String} (hslash : path.toList.getLast? ≠ some '/')
    (hlast : (names path).getLast? = some last) (hdot : last ≠ ".") :
    ∃ c above, (parts path.toList).components.reverse = c :: above ∧ isIdle c = false := by
  have hjoined := joined_parts path.toList
  have hpath := ofReversed_parts path
  have hstart : path ≠ ofReversed (parts path.toList).start [] := by
    intro hstart
    rw [hstart] at hlast
    exact hdot (names_ofReversed_nil hjoined.start_mem last (List.mem_of_getLast? hlast))
  cases hreversed : (parts path.toList).components.reverse with
  | nil => exact absurd (hreversed ▸ hpath).symm hstart
  | cons c above =>
      refine ⟨c, above, rfl, ?_⟩
      rw [hreversed] at hjoined hpath
      rw [Bool.eq_false_iff]
      intro hidle
      have hc : c = [] ∨ c = ['.'] := by simpa [isIdle] using hidle
      rcases hc with rfl | rfl
      · by_cases habove : above = []
        · subst habove
          exact hstart hpath.symm
        · rw [← hpath, toList_ofReversed_cons _ _ habove] at hslash
          simp at hslash
      · rw [← hpath, names_ofReversed_cons hjoined] at hlast
        exact hdot (by simpa using hlast.symm)

/-- The directory of a path that ends in a proper component. -/
theorem directory_of_proper {path : String} {c : List Char} {above : List (List Char)}
    (hpath : (parts path.toList).components.reverse = c :: above) (hc : isIdle c = false) :
    directory path =
      if (ofReversed (parts path.toList).start (above.dropWhile isIdle)).isEmpty then "."
      else ofReversed (parts path.toList).start (above.dropWhile isIdle) := by
  rw [directory, parent?, hpath, List.dropWhile_cons_of_neg (by simp [hc])]

/-- A path that ends in a proper component has it for its last one. -/
theorem getLast?_components_ofReversed {start c : List Char} {above : List (List Char)}
    (h : Joined start (c :: above)) (hc : isIdle c = false) :
    (components (ofReversed start (c :: above)).toList).getLast? = some c := by
  have hslash : '/' ∉ c := h.slash_notMem c (by simp)
  have hlast : ∀ front : List Char, (components (front ++ '/' :: c)).getLast? = some c := by
    intro front
    rw [components_append_slash, components_of_notMem hslash]
    simp
  by_cases habove : above = []
  · subst habove
    have hstart := h.start_mem
    simp only [List.mem_cons, List.not_mem_nil, or_false] at hstart
    rcases hstart with rfl | rfl | rfl
    · simp [ofReversed, components_of_notMem hslash]
    · simpa [ofReversed] using hlast []
    · rw [h.dot rfl c rfl] at hc
      exact absurd hc (by decide)
  · rw [toList_ofReversed_cons start c habove]
    exact hlast _

theorem getLast?_components_parts {cs : List Char} (h : cs ≠ ['.']) :
    (parts cs).components.getLast? = (components cs).getLast? := by
  have hmore : ∀ (p : List Char) r, (p :: components r).getLast? = (components r).getLast? := by
    intro p r
    obtain ⟨q, qs, hq⟩ := List.exists_cons_of_ne_nil (components_ne_nil r)
    rw [hq, List.getLast?_cons_cons]
  fun_cases parts cs with
  | case1 r => rw [components, if_pos rfl, hmore]
  | case2 => exact absurd rfl h
  | case3 r =>
      have hdot : components ('.' :: '/' :: r) = ['.'] :: components r := by simp [components]
      have hslash : components ('/' :: r) = [] :: components r := by simp [components]
      rw [hdot, hmore]
      dsimp only
      rw [hslash, hmore]
  | case4 p => rfl

/-- A path that ends in a proper component is the first of its upward list. -/
theorem exists_upward_ofReversed {start c : List Char} {above : List (List Char)}
    (h : Joined start (c :: above)) (hc : isIdle c = false) :
    ∃ more, upward (ofReversed start (c :: above)) = ofReversed start (c :: above) :: more := by
  have hlast := getLast?_components_ofReversed h hc
  have hdot : (ofReversed start (c :: above)).toList ≠ ['.'] := by
    intro hdot
    rw [hdot] at hlast
    obtain rfl : ['.'] = c := by simpa [components] using hlast
    exact absurd hc (by decide)
  rw [← getLast?_components_parts hdot, ← List.head?_reverse] at hlast
  obtain ⟨rest, hrest⟩ := List.head?_eq_some_iff.mp hlast
  have hpath := ofReversed_parts (ofReversed start (c :: above))
  rw [hrest] at hpath
  rw [upward, hrest, upwardFrom, if_neg (by simp [hc]), hpath]
  exact ⟨_, rfl⟩

/-- The directory of a file is one that is always there, or the first to be made. -/
theorem directory_upward (path : String) :
    directory path = "." ∨ directory path = "/" ∨
      ∃ more, upward (directory path) = directory path :: more := by
  have hjoined := joined_parts path.toList
  unfold directory parent?
  dsimp only
  cases hdrop : (parts path.toList).components.reverse.dropWhile isIdle with
  | nil =>
      dsimp only
      split_ifs
      · exact .inl rfl
      · exact .inl rfl
  | cons last above =>
      dsimp only
      split_ifs with hempty
      · exact .inl rfl
      · have hsuffix : above.dropWhile isIdle <:+ (parts path.toList).components.reverse :=
          (List.dropWhile_suffix isIdle).trans
            ((List.suffix_cons last above).trans (hdrop ▸ List.dropWhile_suffix isIdle))
        have hkept := hjoined.of_suffix hsuffix
        cases hnext : above.dropWhile isIdle with
        | nil =>
            have hstart := hkept.start_mem
            rw [hnext] at hempty
            simp only [List.mem_cons, List.not_mem_nil, or_false] at hstart
            rcases hstart with hstart | hstart | hstart
            · rw [hstart] at hempty
              exact absurd rfl hempty
            · exact .inr (.inl (by rw [hstart]; rfl))
            · exact .inl (by rw [hstart]; rfl)
        | cons c rest =>
            rw [hnext] at hkept
            have hc : isIdle c = false := by
              have hnot := List.head?_dropWhile_not isIdle above
              rw [hnext] at hnot
              exact hnot
            exact .inr (.inr (exists_upward_ofReversed hkept hc))

/-- A text that can be a component of a path and leads down. -/
structure IsName (name : String) : Prop where
  ne_empty : name ≠ ""
  slash_notMem : '/' ∉ name.toList
  ne_dot : name ≠ "."
  ne_dots : name ≠ ".."

namespace IsName
variable {dir name p : String}

theorem isIdle (h : IsName name) : Path.isIdle name.toList = false := by
  have hempty : name.toList ≠ [] := by simpa using h.ne_empty
  have hdot : name.toList ≠ ['.'] := fun hdot => h.ne_dot (String.toList_inj.mp hdot)
  simp [Path.isIdle, hempty, hdot]

/-- Joined to a directory, a name is divided from it by one `/` more, or by the last there is. -/
theorem exists_join (h : IsName name) (hdir : dir ≠ "") :
    ∃ front, (join dir name).toList = front ++ '/' :: name.toList ∧
      (dir.toList = front ∧ dir.toList.getLast? ≠ some '/' ∨ dir.toList = front ++ ['/']) := by
  have hhead : name.toList.head? ≠ some '/' := fun hc =>
    h.slash_notMem (List.mem_of_mem_head? hc)
  have hne : dir.toList ≠ [] := by simpa using hdir
  rw [join, String.toList_ofList, joinChars, if_neg hhead]
  split_ifs with hlast
  · obtain ⟨front, hfront⟩ := List.getLast?_eq_some_iff.mp (hlast.resolve_left hne)
    exact ⟨front, by simp [hfront], .inr hfront⟩
  · exact ⟨dir.toList, rfl, .inl ⟨rfl, fun hc => hlast (.inr hc)⟩⟩

theorem join_eq (h : IsName name) (hdir : dir ≠ "") :
    join dir name = dir ++ (if dir.toList.getLast? = some '/' then "" else "/") ++ name := by
  apply String.toList_inj.mp
  obtain ⟨front, hjoin, ⟨hfront, hlast⟩ | hfront⟩ := h.exists_join hdir
  · rw [hjoin, if_neg hlast, ← hfront]
    simp
  · rw [hjoin, if_pos (by simp [hfront])]
    simp [hfront]

theorem names_eq (h : IsName name) : names name = [name] := by
  rw [names, components_of_notMem h.slash_notMem]
  simp [h.ne_empty]

theorem names_join (h : IsName name) (hdir : dir ≠ "") :
    names (join dir name) = names dir ++ [name] := by
  obtain ⟨front, hjoin, hfront⟩ := h.exists_join hdir
  have hdirnames : names dir = names (String.ofList front) := by
    rcases hfront with ⟨rfl, -⟩ | hfront
    · rw [String.ofList_toList]
    · have hslash : dir.toList = (String.ofList front).toList ++ '/' :: [] := by simp [hfront]
      rw [names_append_slash hslash]
      exact List.append_nil _
  have hslash : (join dir name).toList = (String.ofList front).toList ++ '/' :: name.toList := by
    rw [hjoin, String.toList_ofList]
  rw [names_append_slash hslash, hdirnames, String.ofList_toList, h.names_eq]

theorem getLast?_names_join (h : IsName name) (dir : String) :
    (names (join dir name)).getLast? = some name := by
  by_cases hdir : dir = ""
  · have hhead : name.toList.head? ≠ some '/' := fun hc =>
      h.slash_notMem (List.mem_of_mem_head? hc)
    have hjoin : join dir name = name := by simp [join, joinChars, hdir, hhead]
    rw [hjoin, h.names_eq]
    rfl
  · rw [h.names_join hdir, List.getLast?_concat]

theorem join_ne_empty (h : IsName name) (hdir : dir ≠ "") : join dir name ≠ "" := by
  intro hempty
  have hnames := h.names_join hdir
  rw [hempty] at hnames
  exact List.append_ne_nil_of_right_ne_nil _ (by simp) hnames.symm

theorem getLast?_join (h : IsName name) (hdir : dir ≠ "") :
    (join dir name).toList.getLast? ≠ some '/' := by
  intro hlast
  obtain ⟨front, hjoin, -⟩ := h.exists_join hdir
  have hne : name.toList ≠ [] := by simpa using h.ne_empty
  rw [hjoin, List.getLast?_append, List.getLast?_cons_of_ne_nil hne,
    Option.or_of_isSome (by simpa using hne)] at hlast
  exact h.slash_notMem (List.mem_of_getLast? hlast)

/-- Above a name in a directory there is nothing but what is above the directory. -/
theorem above_join (h : IsName name) (hp : Above p (join dir name)) :
    p = join dir name ∨ Above p dir := by
  obtain ⟨rest, hrest, rfl | hhead⟩ := hp
  · left
    exact String.toList_inj.mp (by simp [hrest])
  · right
    obtain ⟨more, rfl⟩ := List.head?_eq_some_iff.mp hhead
    exact above_of_join_eq h.slash_notMem hrest

end IsName

theorem parts_eq_components {cs : List Char} (hslash : cs.head? ≠ some '/') (hdot : cs ≠ ['.'])
    (hlead : ∀ r, cs ≠ '.' :: '/' :: r) : parts cs = ⟨[], components cs⟩ := by
  unfold parts
  split
  · simp at hslash
  · exact absurd rfl hdot
  · exact absurd rfl (hlead _)
  · rfl

/-- A path that is continued has more components, and its start is the same. -/
theorem parts_append_slash {a : List Char} (b : List Char) (hne : a ≠ []) (hdot : a ≠ ['.']) :
    parts (a ++ '/' :: b) = ⟨(parts a).start, (parts a).components ++ components b⟩ := by
  by_cases hslash : a.head? = some '/'
  · obtain ⟨r, rfl⟩ := List.head?_eq_some_iff.mp hslash
    exact congrArg (Parts.mk ['/']) (components_append_slash r b)
  · by_cases hlead : ∃ r, a = '.' :: '/' :: r
    · obtain ⟨r, rfl⟩ := hlead
      exact congrArg (Parts.mk ['.']) (components_append_slash ('/' :: r) b)
    · obtain ⟨c, r, rfl⟩ := List.exists_cons_of_ne_nil hne
      have hcontinued : parts (c :: r ++ '/' :: b) = ⟨[], components (c :: r ++ '/' :: b)⟩ := by
        apply parts_eq_components
        · exact hslash
        · simp
        · intro r' heq
          cases r with
          | nil => exact hdot (by simp_all)
          | cons d r => exact hlead ⟨r, by simp_all⟩
      rw [hcontinued, parts_eq_components hslash hdot fun r' heq => hlead ⟨r', heq⟩,
        components_append_slash]

/-- The parent of a name in a directory that is itself a name in another. -/
theorem parent?_join_join {dir inner name : String} (hdir : dir ≠ "") (hinner : IsName inner)
    (hname : IsName name) :
    parent? (join (join dir inner) name) = some (join dir inner) := by
  have hnonempty := hinner.join_ne_empty hdir
  have hslash := hinner.getLast?_join hdir
  have hnames := hinner.names_join hdir
  obtain ⟨c, above, hreversed, hc⟩ := exists_proper hslash (by simp [hnames]) hinner.ne_dot
  have hne : (join dir inner).toList ≠ [] := by simpa using hnonempty
  have hdot : (join dir inner).toList ≠ ['.'] := by
    intro hdot
    rw [hdot] at hreversed
    simp [parts] at hreversed
  have hjoin : (join (join dir inner) name).toList =
      (join dir inner).toList ++ '/' :: name.toList := by
    obtain ⟨front, hjoin, ⟨hfront, -⟩ | hfront⟩ := hname.exists_join hnonempty
    · rw [hjoin, hfront]
    · exact absurd (by simp [hfront]) hslash
  rw [parent?, hjoin, parts_append_slash _ hne hdot, components_of_notMem hname.slash_notMem]
  dsimp only
  rw [List.reverse_concat, List.dropWhile_cons_of_neg (by simp [hname.isIdle])]
  dsimp only
  rw [hreversed, List.dropWhile_cons_of_neg (by simp [hc]), ← hreversed, ofReversed_parts]

end TaggedUnion.Path
