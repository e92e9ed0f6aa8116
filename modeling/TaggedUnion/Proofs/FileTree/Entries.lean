import Mathlib.Data.List.Basic
import TaggedUnion.FileTree.Access
import TaggedUnion.Proofs.Path

/-!
# Entries and the paths to them

Putting an entry into a tree changes what is at its location and nothing else, and taking a new
entry out again gives the tree as it was. This needs no order among the entries.

Following a path enters the directories of all its names but the last. So whatever a path leads to,
it still leads there in a tree that has all the directories of the first one.
-/

namespace TaggedUnion.FileTree

theorem lookup_entry_cons (k m : Location) (f : Entry) (xs : List (Location × Entry)) :
    ((m, f) :: xs).lookup k = if k = m then some f else xs.lookup k := by
  rw [List.lookup_cons]
  by_cases hk : k = m
  · simp [hk]
  · simp [hk, beq_eq_false_iff_ne.mpr hk]

theorem lookup_insertEntry (l k : Location) (e : Entry) (xs : List (Location × Entry)) :
    (insertEntry l e xs).lookup k = if k = l then some e else xs.lookup k := by
  induction xs with
  | nil => rw [insertEntry, lookup_entry_cons]
  | cons x xs ih =>
      obtain ⟨m, f⟩ := x
      rw [insertEntry, lookup_entry_cons k m]
      by_cases hm : l = m
      · subst hm
        rw [if_pos rfl, lookup_entry_cons]
        split_ifs <;> rfl
      · rw [if_neg hm]
        by_cases hbefore : Location.before l m = true
        · rw [if_pos hbefore, lookup_entry_cons, lookup_entry_cons]
        · rw [if_neg hbefore, lookup_entry_cons, ih]
          by_cases hk : k = m
          · simp [hk, Ne.symm hm]
          · simp [hk]

theorem filter_insertEntry (l : Location) (e : Entry) (xs : List (Location × Entry)) :
    (insertEntry l e xs).filter (fun x => x.1 ≠ l) = xs.filter fun x => x.1 ≠ l := by
  induction xs with
  | nil => simp [insertEntry]
  | cons x xs ih =>
      obtain ⟨m, f⟩ := x
      rw [insertEntry]
      split_ifs with hm hbefore
      · simp [hm]
      · simp
      · simp only [List.filter_cons, ih]

theorem insertEntry_insertEntry (l : Location) (e e' : Entry) (xs : List (Location × Entry)) :
    insertEntry l e' (insertEntry l e xs) = insertEntry l e' xs := by
  induction xs with
  | nil => simp [insertEntry]
  | cons x xs ih =>
      obtain ⟨m, f⟩ := x
      rw [insertEntry, insertEntry]
      split_ifs with hm hbefore
      · simp [insertEntry]
      · simp [insertEntry]
      · simp [insertEntry, hm, hbefore, ih]

@[simp] theorem get?_nil (t : FileTree) : t.get? [] = some .directory := rfl

/-- Putting an entry into a tree changes what is at its location. -/
theorem get?_insert {l : Location} (hl : l ≠ []) (t : FileTree) (e : Entry) (k : Location) :
    (t.insert l e).get? k = if k = l then some e else t.get? k := by
  by_cases hk : k = []
  · subst hk
    simp [get?, hl.symm]
  · simp only [get?, insert, hk, if_false, lookup_insertEntry]

@[simp] theorem get?_insert_self {l : Location} (hl : l ≠ []) (t : FileTree) (e : Entry) :
    (t.insert l e).get? l = some e := by
  rw [get?_insert hl, if_pos rfl]

theorem get?_insert_of_ne {l k : Location} (hl : l ≠ []) (hk : k ≠ l) (t : FileTree) (e : Entry) :
    (t.insert l e).get? k = t.get? k := by
  rw [get?_insert hl, if_neg hk]

/-- Taking a new entry out again gives the tree as it was. -/
theorem erase_insert {t : FileTree} {l : Location} (h : t.get? l = none) (e : Entry) :
    (t.insert l e).erase l = t := by
  have hl : l ≠ [] := by
    rintro rfl
    simp at h
  rw [get?, if_neg hl, List.lookup_eq_none_iff] at h
  have hall : t.entries.filter (fun x => x.1 ≠ l) = t.entries := by
    rw [List.filter_eq_self]
    intro x hx
    have hne : l ≠ x.1 := by simpa using h x hx
    simpa using hne.symm
  cases t with
  | mk entries => exact congrArg FileTree.mk ((filter_insertEntry l e entries).trans hall)

/-- An entry that is put in the place of another leaves no trace of it. -/
theorem insert_insert (t : FileTree) (l : Location) (e e' : Entry) :
    (t.insert l e).insert l e' = t.insert l e' :=
  congrArg FileTree.mk (insertEntry_insertEntry l e e' t.entries)

/-- The bytes of the file at a location. -/
def file? (t : FileTree) (l : Location) : Option ByteArray :=
  match t.get? l with
  | some (.file content) => some content
  | _ => none

theorem file?_eq_some_iff {t : FileTree} {l : Location} {content : ByteArray} :
    t.file? l = some content ↔ t.get? l = some (.file content) := by
  unfold file?
  split <;> simp_all

theorem file?_congr {t t' : FileTree} {l : Location} (h : t'.get? l = t.get? l) :
    t'.file? l = t.file? l := by
  rw [file?, file?, h]

/-- Every directory of the first tree is one of the second. -/
def KeepsDirectories (t t' : FileTree) : Prop :=
  ∀ l, t.get? l = some .directory → t'.get? l = some .directory

section Following
variable {t t' : FileTree} {path : String}

theorem enter_eq_ok_iff {here l : Location} {name : String} :
    t.enter here name = .ok l ↔
      (name = "." ∧ here = l) ∨ (name = ".." ∧ here.dropLast = l) ∨
        (name ≠ "." ∧ name ≠ ".." ∧ name.utf8ByteSize ≤ maxNameBytes ∧
          t.get? (here ++ [name]) = some .directory ∧ here ++ [name] = l) := by
  unfold enter
  split_ifs with hdot hdots hlong
  · simp [hdot]
  · simp [hdots]
  · simp [hdot, hdots, Nat.not_le.mpr hlong]
  · have hshort : name.utf8ByteSize ≤ maxNameBytes := Nat.le_of_not_lt hlong
    cases hentry : t.get? (here ++ [name]) with
    | none => simp [hdot, hdots]
    | some entry => cases entry <;> simp [hdot, hdots, hshort]

theorem KeepsDirectories.enter (h : KeepsDirectories t t') {here l : Location} {name : String}
    (hl : t.enter here name = .ok l) : t'.enter here name = .ok l := by
  rw [enter_eq_ok_iff] at hl ⊢
  rcases hl with hl | hl | ⟨hdot, hdots, hshort, hdir, rfl⟩
  · exact .inl hl
  · exact .inr (.inl hl)
  · exact .inr (.inr ⟨hdot, hdots, hshort, h _ hdir, rfl⟩)

theorem KeepsDirectories.walk (h : KeepsDirectories t t') {here l : Location}
    {names : List String} (hl : t.walk here names = .ok l) : t'.walk here names = .ok l := by
  induction names generalizing here with
  | nil => exact hl
  | cons name names ih =>
      rw [FileTree.walk] at hl ⊢
      cases hnext : t.enter here name with
      | error e => simp [hnext] at hl
      | ok next =>
          rw [hnext] at hl
          rw [h.enter hnext]
          exact ih hl

theorem walk_append_eq_ok_iff {here l : Location} {as bs : List String} :
    t.walk here (as ++ bs) = .ok l ↔ ∃ m, t.walk here as = .ok m ∧ t.walk m bs = .ok l := by
  induction as generalizing here with
  | nil => simp [walk]
  | cons a as ih =>
      rw [List.cons_append, walk, walk]
      cases t.enter here a with
      | error e => simp
      | ok next => exact ih

theorem walk_singleton (here : Location) (name : String) :
    t.walk here [name] = t.enter here name := by
  rw [walk]
  cases t.enter here name <;> rfl

/-- Dots lead nowhere. -/
theorem walk_dots {names : List String} (h : ∀ name ∈ names, name = ".") (here : Location) :
    t.walk here names = .ok here := by
  induction names with
  | nil => rfl
  | cons name names ih =>
      obtain rfl := h name (by simp)
      exact ih fun n hn => h n (by simp [hn])

/-- What can be followed at all in some tree. -/
structure Usable (path : String) : Prop where
  nul_notMem : '\x00' ∉ path.toList
  ne_empty : path ≠ ""
  length_le : path.utf8ByteSize ≤ maxPathBytes

theorem usable_dot : Usable "." :=
  ⟨by decide, by decide, by decide⟩

theorem usable_root : Usable "/" :=
  ⟨by decide, by decide, by decide⟩

theorem Usable.of_append {p q : String} {rest : List Char} (h : Usable q) (hp : p ≠ "")
    (hq : q.toList = p.toList ++ rest) : Usable p := by
  refine ⟨fun hmem => h.nul_notMem (by simp [hq, hmem]), hp, ?_⟩
  have happend : q = p ++ String.ofList rest := String.toList_inj.mp (by simp [hq])
  have hlength := h.length_le
  rw [happend, String.utf8ByteSize_append] at hlength
  omega

/-- Why a path that is not usable is refused does not depend on the tree. -/
theorem exists_follow_error (h : ¬ Usable path) : ∃ why, ∀ t, follow t path = .error why := by
  by_cases hnul : path.toList.contains '\x00' = true
  · exact ⟨.nulInPath, fun t => by rw [follow, if_pos hnul]⟩
  · by_cases hempty : path = ""
    · exact ⟨.noEntry, fun t => by rw [follow, if_neg hnul, if_pos hempty]⟩
    · by_cases hlong : maxPathBytes < path.utf8ByteSize
      · exact ⟨.nameTooLong, fun t => by rw [follow, if_neg hnul, if_neg hempty, if_pos hlong]⟩
      · exact absurd ⟨by simpa using hnul, hempty, Nat.le_of_not_lt hlong⟩ h

theorem Usable.of_follow {goal : Goal} (h : t.follow path = .ok goal) : Usable path := by
  by_contra hnot
  obtain ⟨why, hwhy⟩ := exists_follow_error hnot
  rw [hwhy t] at h
  simp at h

theorem follow_of_names_nil (h : Usable path) (hnames : Path.names path = []) :
    t.follow path = .ok (.directory []) := by
  have hnul : ¬ path.toList.contains '\x00' = true := by simpa using h.nul_notMem
  rw [follow, if_neg hnul, if_neg h.ne_empty, if_neg (Nat.not_lt.mpr h.length_le), hnames]
  rfl

section Names
variable {before : List String} {last : String}

/-- A path is followed by entering all names but the last. -/
theorem follow_of_walk_ok (h : Usable path) (hnames : Path.names path = before ++ [last])
    {folder : Location} (hwalk : t.walk [] before = .ok folder) :
    t.follow path = Goal.ofName folder last (path.toList.getLast? = some '/') := by
  have hnul : ¬ path.toList.contains '\x00' = true := by simpa using h.nul_notMem
  rw [follow, if_neg hnul, if_neg h.ne_empty, if_neg (Nat.not_lt.mpr h.length_le), hnames,
    List.getLast?_concat, List.dropLast_concat, hwalk]

theorem follow_of_walk_error (h : Usable path) (hnames : Path.names path = before ++ [last])
    {why : Refusal} (hwalk : t.walk [] before = .error why) : t.follow path = .error why := by
  have hnul : ¬ path.toList.contains '\x00' = true := by simpa using h.nul_notMem
  rw [follow, if_neg hnul, if_neg h.ne_empty, if_neg (Nat.not_lt.mpr h.length_le), hnames,
    List.getLast?_concat, List.dropLast_concat, hwalk]

end Names

theorem follow_eq_ok_iff {goal : Goal} :
    t.follow path = .ok goal ↔ Usable path ∧
      ((Path.names path = [] ∧ .directory [] = goal) ∨
        ∃ before last folder, Path.names path = before ++ [last] ∧
          t.walk [] before = .ok folder ∧
            Goal.ofName folder last (path.toList.getLast? = some '/') = .ok goal) := by
  constructor
  · intro h
    have husable := Usable.of_follow h
    refine ⟨husable, ?_⟩
    rcases List.eq_nil_or_concat (Path.names path) with hnames | ⟨before, last, hnames⟩
    · rw [follow_of_names_nil husable hnames] at h
      exact .inl ⟨hnames, Except.ok.inj h⟩
    · rw [List.concat_eq_append] at hnames
      cases hwalk : t.walk [] before with
      | error why =>
          rw [follow_of_walk_error husable hnames hwalk] at h
          simp at h
      | ok folder =>
          rw [follow_of_walk_ok husable hnames hwalk] at h
          exact .inr ⟨before, last, folder, hnames, hwalk, h⟩
  · intro h
    obtain ⟨husable, ⟨hnames, rfl⟩ | ⟨before, last, folder, hnames, hwalk, hgoal⟩⟩ := h
    · exact follow_of_names_nil husable hnames
    · rw [follow_of_walk_ok husable hnames hwalk, hgoal]

theorem Goal.ofName_eq_name_iff {folder here : Location} {last name : String} {slash end? : Bool} :
    Goal.ofName folder last end? = .ok (.name here name slash) ↔
      (last ≠ "." ∧ last ≠ ".." ∧ last.utf8ByteSize ≤ maxNameBytes) ∧
        folder = here ∧ last = name ∧ end? = slash := by
  unfold Goal.ofName
  split_ifs with hdot hdots hlong
  · simp [hdot]
  · simp [hdots]
  · simp [Nat.not_le.mpr hlong]
  · simp [hdot, hdots, Nat.le_of_not_lt hlong]

/-- A path leads to a name in the directory that its other names lead to. -/
theorem follow_eq_name_iff {folder : Location} {name : String} {slash : Bool} :
    t.follow path = .ok (.name folder name slash) ↔
      Usable path ∧ (name ≠ "." ∧ name ≠ ".." ∧ name.utf8ByteSize ≤ maxNameBytes) ∧
        decide (path.toList.getLast? = some '/') = slash ∧
          ∃ before, Path.names path = before ++ [name] ∧ t.walk [] before = .ok folder := by
  simp only [follow_eq_ok_iff, Goal.ofName_eq_name_iff, reduceCtorEq, and_false, false_or]
  constructor
  · intro h
    obtain ⟨husable, before, last, here, hnames, hwalk, hproper, rfl, rfl, hslash⟩ := h
    exact ⟨husable, hproper, hslash, before, hnames, hwalk⟩
  · intro h
    obtain ⟨husable, hproper, hslash, before, hnames, hwalk⟩ := h
    exact ⟨husable, before, name, folder, hnames, hwalk, hproper, rfl, rfl, hslash⟩

/-- Whatever a path leads to, it still leads there. -/
theorem KeepsDirectories.follow (h : KeepsDirectories t t') {goal : Goal}
    (hg : t.follow path = .ok goal) : t'.follow path = .ok goal := by
  rw [follow_eq_ok_iff] at hg ⊢
  obtain ⟨husable, hnil | ⟨before, last, folder, hnames, hwalk, hgoal⟩⟩ := hg
  · exact ⟨husable, .inl hnil⟩
  · exact ⟨husable, .inr ⟨before, last, folder, hnames, h.walk hwalk, hgoal⟩⟩

theorem KeepsDirectories.directoryAt (h : KeepsDirectories t t') {l : Location}
    (hl : t.directoryAt path = .ok l) : t'.directoryAt path = .ok l := by
  unfold FileTree.directoryAt at hl ⊢
  cases hg : t.follow path with
  | error e => simp [hg] at hl
  | ok goal =>
      rw [hg] at hl
      rw [h.follow hg]
      cases goal with
      | directory here => exact hl
      | name folder name slash => exact h.enter hl

/-- A path leads to a directory exactly if all of its names can be entered. -/
theorem directoryAt_eq_ok_iff_walk {l : Location} :
    t.directoryAt path = .ok l ↔ Usable path ∧ t.walk [] (Path.names path) = .ok l := by
  unfold directoryAt
  by_cases husable : Usable path
  · simp only [husable, true_and]
    rcases List.eq_nil_or_concat (Path.names path) with hnames | ⟨before, last, hnames⟩
    · simp [follow_of_names_nil husable hnames, hnames, walk]
    · rw [List.concat_eq_append] at hnames
      rw [hnames, walk_append_eq_ok_iff]
      cases hwalk : t.walk [] before with
      | error why => simp [follow_of_walk_error husable hnames hwalk]
      | ok folder =>
          simp only [follow_of_walk_ok husable hnames hwalk, Except.ok.injEq, exists_eq_left',
            walk_singleton, Goal.ofName]
          split_ifs with hdot hdots hname
          · simp [enter, hdot]
          · simp [enter, hdots]
          · simp [enter, hdot, hdots, hname]
          · rfl
  · obtain ⟨why, hwhy⟩ := exists_follow_error husable
    simp [hwhy, husable]

end Following

section Sites
variable {t : FileTree} {path : String}

theorem directoryAt_eq_ok_iff {l : Location} :
    t.directoryAt path = .ok l ↔ t.follow path = .ok (.directory l) ∨
      ∃ folder name slash, t.follow path = .ok (.name folder name slash) ∧
        t.get? (folder ++ [name]) = some .directory ∧ folder ++ [name] = l := by
  unfold directoryAt
  cases hg : t.follow path with
  | error e => simp
  | ok goal =>
      cases goal with
      | directory here => simp
      | name folder name slash =>
          obtain ⟨-, ⟨hdot, hdots, hshort⟩, -⟩ := follow_eq_name_iff.mp hg
          simp [enter_eq_ok_iff, hdot, hdots, hshort]

theorem read_eq_ok_iff {content : ByteArray} :
    t.read path = .ok content ↔ ∃ folder name, t.follow path = .ok (.name folder name false) ∧
      t.get? (folder ++ [name]) = some (.file content) := by
  unfold read
  cases hg : t.follow path with
  | error e => simp
  | ok goal =>
      cases goal with
      | directory here => simp
      | name folder name slash =>
          cases hentry : t.get? (folder ++ [name]) with
          | none => simp_all
          | some entry =>
              cases entry with
              | directory => simp_all
              | file bytes => cases slash <;> simp_all

/-- A file that holds the bytes of a text is read as that text. -/
theorem readText_of_read {text : String}
    (h : t.read path = .ok text.toUTF8) : t.readText path = .ok text := by
  have hdecode : String.fromUTF8? text.toUTF8 = some text := by
    unfold String.fromUTF8?
    rw [String.toUTF8_eq_toByteArray, dif_pos text.isValidUTF8]
    rfl
  unfold readText
  rw [h]
  dsimp only
  rw [hdecode]

theorem fileSite_eq_ok_iff {l : Location} :
    t.fileSite path = .ok l ↔ ∃ folder name, t.follow path = .ok (.name folder name false) ∧
      t.get? (folder ++ [name]) ≠ some .directory ∧ folder ++ [name] = l := by
  unfold fileSite
  cases hg : t.follow path with
  | error e => simp
  | ok goal =>
      cases goal with
      | directory here => simp
      | name folder name slash =>
          cases slash with
          | true => simp
          | false =>
              cases hentry : t.get? (folder ++ [name]) with
              | none => simp_all
              | some entry => cases entry <;> simp_all

theorem freeSite_eq_ok_iff {l : Location} :
    t.freeSite path = .ok l ↔ ∃ folder name slash,
      t.follow path = .ok (.name folder name slash) ∧ t.get? (folder ++ [name]) = none ∧
        folder ++ [name] = l := by
  unfold freeSite
  cases hg : t.follow path with
  | error e => simp
  | ok goal =>
      cases goal with
      | directory here => simp
      | name folder name slash =>
          cases hentry : t.get? (folder ++ [name]) with
          | none => simp_all
          | some entry => simp_all

theorem exists_freeSite_error (h : ¬ Usable path) : ∃ why, ∀ t, freeSite t path = .error why := by
  obtain ⟨why, hwhy⟩ := exists_follow_error h
  exact ⟨why, fun t => by rw [freeSite, hwhy t]⟩

/-- A file is put where nothing or another file is, so every directory stays. -/
theorem KeepsDirectories.insert_file {l : Location} (hl : t.fileSite path = .ok l)
    (content : ByteArray) : KeepsDirectories t (t.insert l (.file content)) := by
  obtain ⟨folder, name, -, hfree, rfl⟩ := fileSite_eq_ok_iff.mp hl
  intro k hk
  rw [get?_insert_of_ne (by simp) _]
  · exact hk
  · rintro rfl
    exact hfree hk

end Sites

section Joining
variable {t : FileTree} {dir name : String} {folder l : Location}

theorem Usable.of_join (h : Usable (Path.join dir name)) (hname : Path.IsName name)
    (hdir : dir ≠ "") : Usable dir := by
  obtain ⟨between, -, hjoin⟩ := Path.joinChars_cases dir.toList hname.slash_notMem
  apply h.of_append hdir
  rw [Path.join, String.toList_ofList, hjoin]

/-- A proper name is entered below the directory it was joined to. -/
theorem directoryAt_join (hname : Path.IsName name) (hdir : dir ≠ "")
    (h : t.directoryAt (Path.join dir name) = .ok l) :
    ∃ folder, t.directoryAt dir = .ok folder ∧ l = folder ++ [name] := by
  obtain ⟨husable, hwalk⟩ := directoryAt_eq_ok_iff_walk.mp h
  rw [hname.names_join hdir] at hwalk
  obtain ⟨folder, hfolder, hlast⟩ := walk_append_eq_ok_iff.mp hwalk
  refine ⟨folder, directoryAt_eq_ok_iff_walk.mpr ⟨husable.of_join hname hdir, hfolder⟩, ?_⟩
  rw [walk_singleton, enter_eq_ok_iff] at hlast
  rcases hlast with ⟨hdot, -⟩ | ⟨hdots, -⟩ | ⟨-, -, -, -, rfl⟩
  · exact absurd hdot hname.ne_dot
  · exact absurd hdots hname.ne_dots
  · rfl

/-- A file with a proper name is put into the directory that the name was joined to. -/
theorem fileSite_join (hname : Path.IsName name) (hdir : dir ≠ "")
    (h : t.fileSite (Path.join dir name) = .ok l) :
    ∃ folder, t.directoryAt dir = .ok folder ∧ l = folder ++ [name] := by
  obtain ⟨folder, last, hfollow, -, rfl⟩ := fileSite_eq_ok_iff.mp h
  obtain ⟨husable, -, -, before, hnames, hwalk⟩ := follow_eq_name_iff.mp hfollow
  rw [hname.names_join hdir] at hnames
  obtain ⟨rfl, rfl⟩ := List.append_singleton_inj.mp hnames
  exact ⟨folder, directoryAt_eq_ok_iff_walk.mpr ⟨husable.of_join hname hdir, hwalk⟩, rfl⟩

/-- A name in a directory is free exactly if it has no entry there. -/
theorem freeSite_join (hname : Path.IsName name) (hshort : name.utf8ByteSize ≤ maxNameBytes)
    (husable : Usable (Path.join dir name)) (hat : t.directoryAt dir = .ok folder) :
    t.freeSite (Path.join dir name) =
      match t.get? (folder ++ [name]) with
      | none => .ok (folder ++ [name])
      | some _ => .error .alreadyExists := by
  obtain ⟨hdir, hwalk⟩ := directoryAt_eq_ok_iff_walk.mp hat
  have hfollow : t.follow (Path.join dir name) = .ok (.name folder name false) := by
    rw [follow_eq_name_iff]
    exact ⟨husable, ⟨hname.ne_dot, hname.ne_dots, hshort⟩,
      decide_eq_false (hname.getLast?_join hdir.ne_empty), _, hname.names_join hdir.ne_empty, hwalk⟩
  rw [freeSite, hfollow]
  dsimp only
  cases t.get? (folder ++ [name]) <;> rfl

end Joining

end TaggedUnion.FileTree
