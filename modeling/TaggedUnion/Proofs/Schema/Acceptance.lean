import Mathlib.Data.List.Forall2
import TaggedUnion.Schema.Loading
import TaggedUnion.Proofs.Line.Layout

/-!
# Which lines make a schema

Lines are read one after the other, each with what the lines before it declared. All of them are
read exactly if each can be read on its own and no two declare one name. Otherwise the first line
that cannot be read, or repeats a name, decides: the lines behind it are never looked at.
-/

namespace TaggedUnion

open Text Unicode

/-- The line is read as the variant, under its number. -/
def Declares (l : NumberedLine) (d : Declared) : Prop :=
  Variant.parse l.number l.text = .ok d.variant ∧ d.line = l.number

theorem declare_of_error {l : NumberedLine} {e : Fault}
    (h : Variant.parse l.number l.text = .error e) (seen : List Declared) :
    declare seen l = .error e := by
  rw [declare, h]

theorem declare_of_found {seen : List Declared} {l : NumberedLine} {v : Variant} {d : Declared}
    (h : Variant.parse l.number l.text = .ok v)
    (hd : (seen.find? fun s => s.variant.name == v.name) = some d) :
    declare seen l =
      .error (.located ⟨l.number, nameColumn v.name l.text⟩ (.duplicate v.name d.line)) := by
  simp only [declare, h, hd]

theorem declare_of_fresh {seen : List Declared} {l : NumberedLine} {v : Variant}
    (h : Variant.parse l.number l.text = .ok v) (hs : ∀ s ∈ seen, s.variant.name ≠ v.name) :
    declare seen l = .ok ⟨l.number, v⟩ := by
  have hnone : (seen.find? fun s => s.variant.name == v.name) = none := by
    simpa using hs
  simp only [declare, h, hnone]

theorem declare_eq_ok_iff {seen : List Declared} {l : NumberedLine} {d : Declared} :
    declare seen l = .ok d ↔
      Declares l d ∧ ∀ s ∈ seen, s.variant.name ≠ d.variant.name := by
  constructor
  · intro h
    cases hv : Variant.parse l.number l.text with
    | error e => simp [declare_of_error hv] at h
    | ok v =>
        cases hfind : seen.find? fun s => s.variant.name == v.name with
        | some s => simp [declare_of_found hv hfind] at h
        | none =>
            have hfresh : ∀ s ∈ seen, s.variant.name ≠ v.name := by simpa using hfind
            rw [declare_of_fresh hv hfresh] at h
            obtain rfl := Except.ok.inj h
            exact ⟨⟨hv, rfl⟩, hfresh⟩
  · rintro ⟨⟨hv, hline⟩, hfresh⟩
    rw [declare_of_fresh hv hfresh, ← hline]

theorem collect_cons_ok {seen : List Declared} {l : NumberedLine} {d : Declared}
    (h : declare seen l = .ok d) (ls : List NumberedLine) :
    collect seen (l :: ls) = (d :: (collect (d :: seen) ls).1, (collect (d :: seen) ls).2) := by
  rw [collect, h]

theorem collect_cons_error {seen : List Declared} {l : NumberedLine} {e : Fault}
    (h : declare seen l = .error e) (ls : List NumberedLine) :
    collect seen (l :: ls) = ([], some e) := by
  rw [collect, h]

/-- All lines are read exactly if each can be, and no name is declared twice. -/
theorem collect_eq_none_iff {seen ds : List Declared} {ls : List NumberedLine} :
    collect seen ls = (ds, none) ↔
      List.Forall₂ Declares ls ds ∧ (ds.map (·.variant.name)).Nodup ∧
        ∀ d ∈ ds, ∀ s ∈ seen, s.variant.name ≠ d.variant.name := by
  induction ls generalizing seen ds with
  | nil =>
      rw [collect, List.forall₂_nil_left_iff]
      constructor
      · intro h
        obtain rfl : [] = ds := congrArg Prod.fst h
        simp
      · rintro ⟨rfl, -, -⟩
        rfl
  | cons l ls ih =>
      constructor
      · intro h
        cases hd : declare seen l with
        | error e => simp [collect_cons_error hd] at h
        | ok d =>
            rw [collect_cons_ok hd, Prod.mk.injEq] at h
            obtain ⟨rfl, hnone⟩ := h
            obtain ⟨hread, hfresh⟩ := declare_eq_ok_iff.mp hd
            obtain ⟨hall, hnodup, hseen⟩ := ih.mp (Prod.ext rfl hnone)
            refine ⟨.cons hread hall, ?_, ?_⟩
            · rw [List.map_cons, List.nodup_cons]
              refine ⟨?_, hnodup⟩
              intro hmem
              obtain ⟨d', hd', hname⟩ := List.mem_map.mp hmem
              exact hseen d' hd' d (by simp) hname.symm
            · intro d' hd' s hs
              rcases List.mem_cons.mp hd' with rfl | hd'
              · exact hfresh s hs
              · exact hseen d' hd' s (by simp [hs])
      · rintro ⟨hall, hnodup, hseen⟩
        obtain ⟨d, ds, hread, hmore, rfl⟩ := List.forall₂_cons_left_iff.mp hall
        rw [List.map_cons, List.nodup_cons] at hnodup
        have hd := declare_eq_ok_iff.mpr ⟨hread, hseen d (by simp)⟩
        have hrest : collect (d :: seen) ls = (ds, none) := by
          refine ih.mpr ⟨hmore, hnodup.2, ?_⟩
          intro d' hd' s hs
          rcases List.mem_cons.mp hs with rfl | hs
          · intro hname
            exact hnodup.1 (List.mem_map.mpr ⟨d', hd', hname.symm⟩)
          · exact hseen d' (by simp [hd']) s hs
        rw [collect_cons_ok hd, hrest]

/-- Behind lines that were all read, reading goes on with what they declared. -/
theorem collect_append {seen ds : List Declared} {ls : List NumberedLine}
    (h : collect seen ls = (ds, none)) (more : List NumberedLine) :
    collect seen (ls ++ more) =
      (ds ++ (collect (ds.reverse ++ seen) more).1, (collect (ds.reverse ++ seen) more).2) := by
  induction ls generalizing seen ds with
  | nil =>
      obtain rfl : [] = ds := congrArg Prod.fst h
      rfl
  | cons l ls ih =>
      cases hd : declare seen l with
      | error e => simp [collect_cons_error hd] at h
      | ok d =>
          rw [collect_cons_ok hd, Prod.mk.injEq] at h
          obtain ⟨rfl, hnone⟩ := h
          rw [List.cons_append, collect_cons_ok hd, ih (Prod.ext rfl hnone)]
          simp

theorem exists_declared {ls : List NumberedLine} {vs : List Variant}
    (h : List.Forall₂ (fun l v => Variant.parse l.number l.text = .ok v) ls vs) :
    ∃ ds : List Declared, List.Forall₂ Declares ls ds ∧ ds.map (·.variant) = vs := by
  induction h with
  | nil => exact ⟨[], .nil, rfl⟩
  | @cons l v ls vs hv _ ih =>
      obtain ⟨ds, hds, rfl⟩ := ih
      exact ⟨⟨l.number, v⟩ :: ds, .cons ⟨hv, rfl⟩ hds, rfl⟩

namespace Loading

theorem ofNumbered_of_not_isIdentifier {base : String} (h : isIdentifier base = false)
    (ls : List NumberedLine) : (ofNumbered base ls).result = .error (.general (.badBase base)) := by
  simp [ofNumbered, h]

theorem ofNumbered_of_fault {base : String} {ls : List NumberedLine} {e : Fault}
    (hbase : isIdentifier base = true) (h : (collect [] ls).2 = some e) :
    (ofNumbered base ls).result = .error e := by
  simp [ofNumbered, hbase, h]

theorem ofNumbered_nil {base : String} (h : isIdentifier base = true) :
    (ofNumbered base []).result = .error (.general (.noVariants base)) := by
  simp [ofNumbered, h, collect]

theorem ofNumbered_of_collect {base : String} {ls : List NumberedLine} {ds : List Declared}
    (hbase : isIdentifier base = true) (h : collect [] ls = (ds, none)) (hds : ds ≠ []) :
    (ofNumbered base ls).result = .ok ⟨base, ds.map (·.variant)⟩ := by
  simp [ofNumbered, hbase, h, hds]

theorem ofNumbered_eq_ok_iff {base : String} {ls : List NumberedLine} {s : Schema} :
    (ofNumbered base ls).result = .ok s ↔
      isIdentifier base = true ∧ ls ≠ [] ∧
        ∃ vs, List.Forall₂ (fun l v => Variant.parse l.number l.text = .ok v) ls vs ∧
          (vs.map (·.name)).Nodup ∧ s = ⟨base, vs⟩ := by
  constructor
  · intro h
    cases hbase : isIdentifier base with
    | false => simp [ofNumbered_of_not_isIdentifier hbase] at h
    | true =>
        cases hfault : (collect [] ls).2 with
        | some e => simp [ofNumbered_of_fault hbase hfault] at h
        | none =>
            have hls : ls ≠ [] := by
              rintro rfl
              simp [ofNumbered_nil hbase] at h
            obtain ⟨ds, hcollect⟩ : ∃ ds, collect [] ls = (ds, none) := ⟨_, Prod.ext rfl hfault⟩
            obtain ⟨hall, hnodup, -⟩ := collect_eq_none_iff.mp hcollect
            have hds : ds ≠ [] := by
              rintro rfl
              exact hls (List.forall₂_nil_right_iff.mp hall)
            rw [ofNumbered_of_collect hbase hcollect hds] at h
            refine ⟨rfl, hls, ds.map (·.variant), ?_, ?_, (Except.ok.inj h).symm⟩
            · rw [List.forall₂_map_right_iff]
              exact hall.imp fun _ _ hread => hread.1
            · simpa [Function.comp_def] using hnodup
  · rintro ⟨hbase, hls, vs, hall, hnodup, rfl⟩
    obtain ⟨ds, hds, rfl⟩ := exists_declared hall
    have hne : ds ≠ [] := by
      rintro rfl
      exact hls (List.forall₂_nil_right_iff.mp hds)
    apply ofNumbered_of_collect hbase _ hne
    rw [collect_eq_none_iff]
    exact ⟨hds, by simpa [Function.comp_def] using hnodup, by simp⟩

end Loading

/-- A word behind blanks occurs there for the first time. -/
theorem firstOccurrence_blank_append {w name : List Char} (hw : IsBlank w) (hname : IsWord name)
    (rest : List Char) : firstOccurrence name (w ++ (name ++ rest)) = some w.length := by
  obtain ⟨c, cs, rfl⟩ := List.exists_cons_of_ne_nil hname.ne_nil
  have hc := isWhite_eq_false_of_isWordChar (hname.isWordChar c (by simp))
  induction w with
  | nil => simp [firstOccurrence]
  | cons d w ih =>
      have hd : c ≠ d := by
        rintro rfl
        rw [hw c (by simp)] at hc
        exact absurd hc (by decide)
      rw [List.cons_append, firstOccurrence, ih fun e he => hw e (by simp [he])]
      simp [hd]

/-- The name of a variant is found behind the blanks that its line starts with. -/
theorem firstOccurrence_of_parse {line : Nat} {text : String} {v : Variant}
    (h : Variant.parse line text = .ok v) :
    firstOccurrence v.name.toList text.toList = some (text.toList.takeWhile isWhite).length := by
  obtain ⟨l, rfl, rfl⟩ := parse_eq_ok_iff_layout.mp h
  have hchars : l.chars = l.lead ++ (l.name ++ (l.gap ++ '|' :: listChars l.fields)) := by
    simp [Layout.chars]
  have hlead : l.chars.takeWhile isWhite = l.lead := by
    obtain ⟨c, cs, hname⟩ := List.exists_cons_of_ne_nil l.isWord.ne_nil
    have hc : isWhite c = false := l.isWord.trimmed.first c (by simp [hname])
    rw [hchars, List.takeWhile_append_of_pos l.lead_blank, hname]
    simp [hc]
  simp only [Layout.variant, Layout.text, String.toList_ofList, hlead]
  rw [hchars, firstOccurrence_blank_append l.lead_blank l.isWord]

theorem nameColumn_of_parse {line : Nat} {text : String} {v : Variant}
    (h : Variant.parse line text = .ok v) :
    nameColumn v.name text = 1 + (text.toList.takeWhile isWhite).length := by
  rw [nameColumn, firstOccurrence_of_parse h, Option.getD_some, Nat.add_comm]

/-- The line at the position, counted from zero, can be read and declares the name. -/
def DeclaresName (texts : List String) (i : Nat) (name : String) : Prop :=
  ∃ text v, texts[i]? = some text ∧ Variant.parse (i + 1) text = .ok v ∧ v.name = name

/-- The line at the position cannot be read, or declares a name that an earlier line declares. -/
def Refused (texts : List String) (i : Nat) : Prop :=
  ∃ text, texts[i]? = some text ∧
    ((∃ e, Variant.parse (i + 1) text = .error e) ∨
      ∃ v, Variant.parse (i + 1) text = .ok v ∧ ∃ j < i, DeclaresName texts j v.name)

namespace NumberedLine

theorem getElem?_ofLines (texts : List String) (i : Nat) :
    (ofLines texts)[i]? = texts[i]?.map fun text => ⟨i + 1, text⟩ := by
  simp [ofLines, List.getElem?_zipIdx, Nat.add_comm, Function.comp_def]

theorem ofLines_append_cons (texts : List String) (text : String) (later : List String) :
    ofLines (texts ++ text :: later) = ofLines texts ++ ⟨texts.length + 1, text⟩ ::
      (later.zipIdx (texts.length + 2)).map fun (text, number) => ⟨number, text⟩ := by
  have hone : 1 + texts.length = texts.length + 1 := Nat.add_comm 1 _
  simp [ofLines, List.zipIdx_append, hone]

end NumberedLine

section Declared
variable {texts : List String} {ds : List Declared}

theorem getElem?_declared (h : collect [] (NumberedLine.ofLines texts) = (ds, none)) {i : Nat}
    {text : String} (hi : texts[i]? = some text) :
    ∃ d, ds[i]? = some d ∧ Variant.parse (i + 1) text = .ok d.variant ∧ d.line = i + 1 := by
  obtain ⟨hall, -, -⟩ := collect_eq_none_iff.mp h
  obtain ⟨hlen, hget⟩ := List.forall₂_iff_get.mp hall
  have hline := NumberedLine.getElem?_ofLines texts i
  rw [hi, Option.map_some] at hline
  obtain ⟨hlt, hline⟩ := List.getElem?_eq_some_iff.mp hline
  have hd := hget i hlt (hlen ▸ hlt)
  rw [List.get_eq_getElem, hline] at hd
  exact ⟨_, List.getElem?_eq_getElem (hlen ▸ hlt), hd⟩

theorem declaresName_of_mem (h : collect [] (NumberedLine.ofLines texts) = (ds, none))
    {d : Declared} (hd : d ∈ ds) :
    ∃ i < texts.length, DeclaresName texts i d.variant.name ∧ d.line = i + 1 := by
  obtain ⟨i, hi⟩ := List.mem_iff_getElem?.mp hd
  obtain ⟨hall, -, -⟩ := collect_eq_none_iff.mp h
  have hlen : texts.length = ds.length := by
    rw [← hall.length_eq]
    simp [NumberedLine.ofLines]
  have hlt : i < texts.length := by
    rw [hlen]
    exact (List.getElem?_eq_some_iff.mp hi).choose
  have htext := List.getElem?_eq_getElem hlt
  obtain ⟨d', hd', hparse, hline⟩ := getElem?_declared h htext
  obtain rfl : d = d' := Option.some.inj (hi.symm.trans hd')
  exact ⟨i, hlt, ⟨texts[i], d.variant, htext, hparse, rfl⟩, hline⟩

theorem exists_mem_of_declaresName (h : collect [] (NumberedLine.ofLines texts) = (ds, none))
    {i : Nat} {name : String} (hi : DeclaresName texts i name) :
    ∃ d ∈ ds, d.variant.name = name ∧ ds[i]? = some d := by
  obtain ⟨text, v, htext, hv, rfl⟩ := hi
  obtain ⟨d, hd, hparse, -⟩ := getElem?_declared h htext
  obtain rfl : v = d.variant := Except.ok.inj (hv.symm.trans hparse)
  exact ⟨d, List.mem_of_getElem? hd, rfl, hd⟩

theorem declaresName_unique (h : collect [] (NumberedLine.ofLines texts) = (ds, none)) {i j : Nat}
    {name : String} (hi : DeclaresName texts i name) (hj : DeclaresName texts j name) : i = j := by
  obtain ⟨-, hnodup, -⟩ := collect_eq_none_iff.mp h
  obtain ⟨d, -, hd, hdi⟩ := exists_mem_of_declaresName h hi
  obtain ⟨d', -, hd', hdj⟩ := exists_mem_of_declaresName h hj
  have hlt : i < (ds.map (·.variant.name)).length := by
    simpa using (List.getElem?_eq_some_iff.mp hdi).choose
  apply (List.getElem?_inj hlt hnodup).mp
  simp [hdi, hdj, hd, hd']

theorem not_refused (h : collect [] (NumberedLine.ofLines texts) = (ds, none)) (i : Nat) :
    ¬ Refused texts i := by
  rintro ⟨text, htext, ⟨e, he⟩ | ⟨v, hv, j, hj, hname⟩⟩
  · obtain ⟨d, -, hparse, -⟩ := getElem?_declared h htext
    rw [he] at hparse
    exact absurd hparse (by simp)
  · exact absurd (declaresName_unique h hname ⟨text, v, htext, hv, rfl⟩) (Nat.ne_of_lt hj)

/-- What becomes of a line behind lines that were all read. -/
theorem declare_cases (h : collect [] (NumberedLine.ofLines texts) = (ds, none)) (text : String) :
    (∃ e, Variant.parse (texts.length + 1) text = .error e ∧
        declare ds.reverse ⟨texts.length + 1, text⟩ = .error e) ∨
      (∃ v j, Variant.parse (texts.length + 1) text = .ok v ∧ j < texts.length ∧
        DeclaresName texts j v.name ∧ declare ds.reverse ⟨texts.length + 1, text⟩ =
          .error (.located ⟨texts.length + 1, 1 + (text.toList.takeWhile isWhite).length⟩
            (.duplicate v.name (j + 1)))) ∨
      (∃ v, Variant.parse (texts.length + 1) text = .ok v ∧ (∀ j, ¬ DeclaresName texts j v.name) ∧
        declare ds.reverse ⟨texts.length + 1, text⟩ = .ok ⟨texts.length + 1, v⟩) := by
  cases hv : Variant.parse (texts.length + 1) text with
  | error e => exact .inl ⟨e, rfl, declare_of_error (l := ⟨texts.length + 1, text⟩) hv _⟩
  | ok v =>
      right
      cases hfind : ds.reverse.find? fun s => s.variant.name == v.name with
      | some d =>
          left
          have hname : d.variant.name = v.name := by simpa using List.find?_some hfind
          have hmem : d ∈ ds := List.mem_reverse.mp (List.mem_of_find?_eq_some hfind)
          obtain ⟨j, hj, hdecl, hline⟩ := declaresName_of_mem h hmem
          refine ⟨v, j, rfl, hj, hname ▸ hdecl, ?_⟩
          rw [declare_of_found (l := ⟨texts.length + 1, text⟩) hv hfind, hline,
            nameColumn_of_parse hv]
      | none =>
          right
          have hfresh : ∀ s ∈ ds.reverse, s.variant.name ≠ v.name := by simpa using hfind
          refine ⟨v, rfl, ?_, declare_of_fresh hv hfresh⟩
          intro j hj
          obtain ⟨d, hd, hname, -⟩ := exists_mem_of_declaresName h hj
          exact hfresh d (List.mem_reverse.mpr hd) hname

/-- The first line that cannot be declared decides, whatever follows it. -/
theorem Loading.ofLines_of_declare_error {base : String} {text : String} {e : Fault}
    (hbase : isIdentifier base = true)
    (h : collect [] (NumberedLine.ofLines texts) = (ds, none))
    (he : declare ds.reverse ⟨texts.length + 1, text⟩ = .error e) (later : List String) :
    (ofLines base (texts ++ text :: later)).result = .error e := by
  apply ofNumbered_of_fault hbase
  rw [NumberedLine.ofLines_append_cons, collect_append h, List.append_nil, collect_cons_error he]

end Declared

/-- Either all lines are read, or there is a first line that cannot be declared. -/
theorem collect_ofLines_cases (texts : List String) :
    (∃ ds, collect [] (NumberedLine.ofLines texts) = (ds, none)) ∨
      ∃ before text later ds e, texts = before ++ text :: later ∧
        collect [] (NumberedLine.ofLines before) = (ds, none) ∧
        declare ds.reverse ⟨before.length + 1, text⟩ = .error e := by
  induction texts using List.reverseRecOn with
  | nil => exact .inl ⟨[], rfl⟩
  | append_singleton texts text ih =>
      obtain ⟨ds, hds⟩ | ⟨before, text', later, ds, e, rfl, hds, he⟩ := ih
      · cases hd : declare ds.reverse ⟨texts.length + 1, text⟩ with
        | error e => exact .inr ⟨texts, text, [], ds, e, rfl, hds, hd⟩
        | ok d =>
            left
            refine ⟨ds ++ [d], ?_⟩
            rw [NumberedLine.ofLines_append_cons, collect_append hds, List.append_nil,
              collect_cons_ok hd]
            rfl
      · exact .inr ⟨before, text', later ++ [text], ds, e, by simp, hds, he⟩

theorem declaresName_append {before later : List String} {i : Nat} (hi : i < before.length)
    (name : String) : DeclaresName (before ++ later) i name ↔ DeclaresName before i name := by
  simp only [DeclaresName, List.getElem?_append_left hi]

theorem refused_append {before later : List String} {i : Nat} (hi : i < before.length) :
    Refused (before ++ later) i ↔ Refused before i := by
  simp only [Refused, List.getElem?_append_left hi]
  constructor
  · rintro ⟨text, htext, he | ⟨v, hv, j, hj, hname⟩⟩
    · exact ⟨text, htext, .inl he⟩
    · exact ⟨text, htext, .inr ⟨v, hv, j, hj, (declaresName_append (hj.trans hi) _).mp hname⟩⟩
  · rintro ⟨text, htext, he | ⟨v, hv, j, hj, hname⟩⟩
    · exact ⟨text, htext, .inl he⟩
    · exact ⟨text, htext, .inr ⟨v, hv, j, hj, (declaresName_append (hj.trans hi) _).mpr hname⟩⟩

/-- A line is refused behind lines that are all read exactly if it cannot be declared. -/
theorem refused_of_declare_error {before later : List String} {text : String} {ds : List Declared}
    {e : Fault} (h : collect [] (NumberedLine.ofLines before) = (ds, none))
    (he : declare ds.reverse ⟨before.length + 1, text⟩ = .error e) :
    Refused (before ++ text :: later) before.length := by
  refine ⟨text, by simp, ?_⟩
  obtain ⟨e', hv, -⟩ | ⟨v, j, hv, hj, hname, -⟩ | ⟨v, -, -, hok⟩ := declare_cases h text
  · exact .inl ⟨e', hv⟩
  · exact .inr ⟨v, hv, j, hj, (declaresName_append hj _).mpr hname⟩
  · simp [hok] at he

theorem collect_before_refused (before later : List String)
    (h : ∀ j < before.length, ¬ Refused (before ++ later) j) :
    ∃ ds, collect [] (NumberedLine.ofLines before) = (ds, none) := by
  obtain hds | ⟨start, text, rest, ds, e, rfl, hds, he⟩ := collect_ofLines_cases before
  · exact hds
  · exfalso
    have hlt : start.length < (start ++ text :: rest).length := by simp
    apply h start.length hlt
    rw [refused_append hlt]
    exact refused_of_declare_error hds he

def FirstRefused (texts : List String) (i : Nat) : Prop :=
  Refused texts i ∧ ∀ j < i, ¬ Refused texts j

/-- Lines up to the first that is refused are all read, and that line cannot be declared. -/
theorem FirstRefused.declare_error {texts : List String} {i : Nat} (h : FirstRefused texts i) :
    ∃ before text later ds e, texts = before ++ text :: later ∧ before.length = i ∧
      collect [] (NumberedLine.ofLines before) = (ds, none) ∧
      declare ds.reverse ⟨before.length + 1, text⟩ = .error e := by
  obtain ⟨⟨text, htext, hrefused⟩, hleast⟩ := h
  obtain ⟨hlt, rfl⟩ := List.getElem?_eq_some_iff.mp htext
  have hparts : texts = texts.take i ++ texts[i] :: texts.drop (i + 1) := by
    rw [← List.drop_eq_getElem_cons hlt, List.take_append_drop]
  have hlen : (texts.take i).length = i := by
    rw [List.length_take]
    omega
  obtain ⟨ds, hds⟩ := collect_before_refused (texts.take i) (texts[i] :: texts.drop (i + 1))
    (by rw [← hparts, hlen]; exact hleast)
  obtain ⟨e, -, he⟩ | ⟨v, j, -, -, -, he⟩ | ⟨v, hv, hnone, -⟩ := declare_cases hds texts[i]
  · exact ⟨_, _, _, ds, _, hparts, hlen, hds, he⟩
  · exact ⟨_, _, _, ds, _, hparts, hlen, hds, he⟩
  · -- A line that can be declared is read, and no line before it has its name.
    exfalso
    rw [hlen] at hv
    obtain ⟨e, he⟩ | ⟨v', hv', j, hj, hname⟩ := hrefused
    · simp [he] at hv
    · obtain rfl : v' = v := Except.ok.inj (hv'.symm.trans hv)
      rw [hparts, declaresName_append (by omega)] at hname
      exact hnone j hname

namespace Loading

/-- The fault of the first line that is refused, which lines behind it do not change. -/
theorem ofLines_of_firstRefused {base : String} {texts : List String} {i : Nat} {text : String}
    (hbase : isIdentifier base = true) (h : FirstRefused texts i) (htext : texts[i]? = some text) :
    ∃ e, (∀ later, (ofLines base (texts.take (i + 1) ++ later)).result = .error e) ∧
      ((Variant.parse (i + 1) text = .error e) ∨
        ∃ v j, Variant.parse (i + 1) text = .ok v ∧ j < i ∧ DeclaresName texts j v.name ∧
          (∀ k < i, DeclaresName texts k v.name → k = j) ∧
          e = .located ⟨i + 1, 1 + (text.toList.takeWhile isWhite).length⟩
            (.duplicate v.name (j + 1))) := by
  obtain ⟨before, text', later, ds, e, rfl, rfl, hds, he⟩ := h.declare_error
  obtain rfl : text' = text := by simpa using htext
  refine ⟨e, ?_, ?_⟩
  · intro later'
    have htake : (before ++ text' :: later).take (before.length + 1) ++ later' =
        before ++ text' :: later' := by
      rw [List.take_append, List.take_of_length_le (Nat.le_succ _)]
      simp
    rw [htake]
    exact ofLines_of_declare_error hbase hds he later'
  · obtain ⟨e', hv, he'⟩ | ⟨v, j, hv, hj, hname, he'⟩ | ⟨v, -, -, hok⟩ := declare_cases hds text'
    · left
      rw [hv, ← Except.error.inj (he.symm.trans he')]
    · right
      refine ⟨v, j, hv, hj, (declaresName_append hj _).mpr hname, ?_,
        Except.error.inj (he.symm.trans he')⟩
      intro k hk hk'
      exact declaresName_unique hds ((declaresName_append hk _).mp hk') hname
    · simp [hok] at he

theorem ofLines_eq_ok_iff {base : String} {texts : List String} {s : Schema} :
    (ofLines base texts).result = .ok s ↔
      isIdentifier base = true ∧ texts ≠ [] ∧
        ∃ vs, List.Forall₂ (fun line v => Variant.parse line.2 line.1 = .ok v) (texts.zipIdx 1) vs ∧
          (vs.map (·.name)).Nodup ∧ s = ⟨base, vs⟩ := by
  have hne : NumberedLine.ofLines texts ≠ [] ↔ texts ≠ [] := by simp [NumberedLine.ofLines]
  rw [ofLines, ofNumbered_eq_ok_iff, hne, NumberedLine.ofLines]
  simp only [List.forall₂_map_left_iff]

theorem exists_firstRefused {base : String} {texts : List String}
    (hbase : isIdentifier base = true) (hne : texts ≠ [])
    (h : ∀ s, (ofLines base texts).result ≠ .ok s) : ∃ i, FirstRefused texts i := by
  obtain ⟨ds, hds⟩ | ⟨before, text, later, ds, e, rfl, hds, he⟩ := collect_ofLines_cases texts
  · exfalso
    have hds' : ds ≠ [] := by
      rintro rfl
      have hall := (collect_eq_none_iff.mp hds).1
      rw [List.forall₂_nil_right_iff] at hall
      exact hne (by simpa [NumberedLine.ofLines] using hall)
    exact h _ (ofNumbered_of_collect hbase hds hds')
  · refine ⟨before.length, refused_of_declare_error hds he, ?_⟩
    intro j hj
    rw [refused_append hj]
    exact not_refused hds j

/-- Exactly which lines make a schema, and what is told about all others. A name that is no
identifier comes first and has no place, then a list without lines, then the first line that is
refused: its own fault, or the line that declares the name already. Those behind do not matter. -/
theorem ofLines_exact (base : String) (texts : List String) :
    (∀ s, (ofLines base texts).result = .ok s ↔
      isIdentifier base = true ∧ texts ≠ [] ∧
        ∃ vs, List.Forall₂ (fun line v => Variant.parse line.2 line.1 = .ok v) (texts.zipIdx 1) vs ∧
          (vs.map (·.name)).Nodup ∧ s = ⟨base, vs⟩) ∧
    (isIdentifier base = false → ∃ e, (ofLines base texts).result = .error e ∧
      e.diagnostic = .general .invalidName s!"Base type name '{base}' is not an identifier") ∧
    (isIdentifier base = true → texts = [] → ∃ e, (ofLines base texts).result = .error e ∧
      e.diagnostic = .general .emptyVariantList s!"Schema for '{base}' declares no variants") ∧
    (isIdentifier base = true → texts ≠ [] → (∀ s, (ofLines base texts).result ≠ .ok s) →
      ∃ i, FirstRefused texts i) ∧
    ∀ i text, isIdentifier base = true → FirstRefused texts i → texts[i]? = some text →
      (∀ e, Variant.parse (i + 1) text = .error e → (ofLines base texts).result = .error e) ∧
      (∀ v, Variant.parse (i + 1) text = .ok v →
        ∃ j < i, DeclaresName texts j v.name ∧ (∀ k < i, DeclaresName texts k v.name → k = j) ∧
          ∃ e, (ofLines base texts).result = .error e ∧
            e.diagnostic = .located .duplicateVariant
              s!"Duplicate variant '{v.name}' (first declared on line {j + 1})" (i + 1)
              (1 + (text.toList.takeWhile isWhite).length)) ∧
      ∀ later, (ofLines base (texts.take (i + 1) ++ later)).result =
        (ofLines base texts).result := by
  refine ⟨fun s => ofLines_eq_ok_iff, ?_, ?_, exists_firstRefused, ?_⟩
  · intro hbase
    exact ⟨_, ofNumbered_of_not_isIdentifier hbase _, rfl⟩
  · rintro hbase rfl
    exact ⟨_, ofNumbered_nil hbase, rfl⟩
  · intro i text hbase hfirst htext
    obtain ⟨e, hlater, hfault⟩ := ofLines_of_firstRefused hbase hfirst htext
    have hresult : (ofLines base texts).result = .error e := by
      rw [← hlater (texts.drop (i + 1)), List.take_append_drop]
    refine ⟨?_, ?_, fun later => (hlater later).trans hresult.symm⟩
    · intro e' he'
      obtain he | ⟨v, j, hv, -⟩ := hfault
      · rw [hresult, ← Except.error.inj (he'.symm.trans he)]
      · simp [hv] at he'
    · intro v hv
      obtain he | ⟨v', j, hv', hj, hname, honly, rfl⟩ := hfault
      · simp [hv] at he
      · obtain rfl : v' = v := Except.ok.inj (hv'.symm.trans hv)
        exact ⟨j, hj, hname, honly, _, hresult, rfl⟩

end Loading

end TaggedUnion
