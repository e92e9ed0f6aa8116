import TaggedUnion.Proofs.Command.Checking
import TaggedUnion.Proofs.Command.Sessions
import TaggedUnion.Proofs.Declaration.Replay
import TaggedUnion.Proofs.Schema.FaultPlaces

/-!
# What the log tells

At the lowest threshold the log shows every event of a run. Its parts are compared with what they
tell of: the nodes that were read with the lines of the schema up to the first that is refused, the
boxed fields with the rules for storage, and the sizes with the text of the module and its file.

Nodes are read and fields are boxed in loops. A loop that ends early has told what it did before,
and nothing else.
-/

namespace TaggedUnion

open Unicode

namespace Event

def node? : Event → Option (Nat × String × Nat)
  | nodeRead line variant fields => some (line, variant, fields)
  | _ => none

def emitted? : Event → Option Nat
  | unionEmitted _ _ bytes => some bytes
  | _ => none

def written? : Event → Option Nat
  | moduleWritten _ bytes => some bytes
  | _ => none

end Event

def Note.logged? (threshold : Threshold) : Note → Option Event
  | event e => if threshold.shows e.level then some e else none
  | _ => none

/-- What a note writes to the error stream besides the log. -/
def Note.remark (w : Wording) : Note → String
  | err text => text
  | misuse => w.misuse
  | _ => ""

namespace Outcome

def log (o : Outcome) (threshold : Threshold) : List Event :=
  o.notes.filterMap (Note.logged? threshold)

def remarks (o : Outcome) (w : Wording) : String :=
  String.join (o.notes.map (Note.remark w))

/-- The outcome has these events, and a text for one of the streams behind them. -/
def Tells (o : Outcome) (events : List Event) : Prop :=
  ∃ last, o.notes = events.map .event ++ [last] ∧ ∀ e, last ≠ .event e

theorem tells_out (exit : Nat) (events : List Event) (text : String) :
    Tells ⟨exit, events.map .event ++ [.out text]⟩ events :=
  ⟨_, rfl, by simp⟩

theorem tells_err (exit : Nat) (events : List Event) (text : String) :
    Tells ⟨exit, events.map .event ++ [.err text]⟩ events :=
  ⟨_, rfl, by simp⟩

namespace Tells
variable {o : Outcome} {events : List Event}

theorem log_eq (h : o.Tells events) (threshold : Threshold) :
    o.log threshold = events.filter fun e => threshold.shows e.level := by
  obtain ⟨last, hnotes, hlast⟩ := h
  have hnone : last.logged? threshold = none := by
    cases last with
    | event e => exact absurd rfl (hlast e)
    | out text => rfl
    | err text => rfl
    | misuse => rfl
  have hevents : Note.logged? threshold ∘ Note.event =
      Option.guard fun e => threshold.shows e.level := by
    funext e
    simp [Note.logged?, Option.guard]
  rw [log, hnotes, List.filterMap_append, List.filterMap_map, hevents, List.filterMap_eq_filter]
  simp [hnone]

/-- At the lowest threshold nothing is left out. -/
theorem log_trace (h : o.Tells events) : o.log (.level .trace) = events := by
  rw [h.log_eq, List.filter_eq_self]
  intro e _
  simp [Threshold.shows, Level.rank]

/-- On the error stream, every event has its line, and what else there is comes behind. -/
theorem errors_eq (h : o.Tells events) (w : Wording) (threshold : Threshold) :
    o.errors w threshold = String.join ((o.log threshold).map w.line) ++ o.remarks w := by
  rw [h.log_eq]
  obtain ⟨last, hnotes, hlast⟩ := h
  have herrors : last.errors w threshold = last.remark w := by
    cases last with
    | event e => exact absurd rfl (hlast e)
    | out text => rfl
    | err text => rfl
    | misuse => rfl
  simp only [errors, remarks, hnotes]
  clear hnotes
  induction events with
  | nil => simp [herrors]
  | cons e events ih =>
      simp only [List.map_cons, List.cons_append, String.join_cons]
      rw [ih]
      by_cases hshows : threshold.shows e.level = true
      · simp [Note.errors, Note.remark, hshows, String.append_assoc]
      · simp [Note.errors, Note.remark, hshows]

end Tells

end Outcome

/-- The lines `before` are read as variants of distinct names. The line behind them, if there is
one, cannot be read or repeats a name. -/
structure ReadUpTo (before after : List NumberedLine) (vs : List Variant) : Prop where
  read : List.Forall₂ (fun l v => Variant.parse l.number l.text = .ok v) before vs
  distinct : (vs.map (·.name)).Nodup
  refused : ∀ l ∈ after.head?, (∃ e, Variant.parse l.number l.text = .error e) ∨
    ∃ v, Variant.parse l.number l.text = .ok v ∧ v.name ∈ vs.map (·.name)

def nodeFacts (l : NumberedLine) (v : Variant) : Nat × String × Nat :=
  (l.number, v.name, v.fields.length)

theorem readUpTo_of_collect {before after : List NumberedLine} {ds : List Declared}
    (h : collect [] before = (ds, none))
    (hafter : ∀ l ∈ after.head?, ∃ e, declare ds.reverse l = .error e) :
    ReadUpTo before after (ds.map (·.variant)) := by
  obtain ⟨hall, hnodup, -⟩ := collect_eq_none_iff.mp h
  refine ⟨?_, ?_, ?_⟩
  · rw [List.forall₂_map_right_iff]
    exact hall.imp fun _ _ hread => hread.1
  · simpa [Function.comp_def] using hnodup
  · intro l hl
    obtain ⟨e, he⟩ := hafter l hl
    cases hparse : Variant.parse l.number l.text with
    | error e' => exact .inl ⟨e', rfl⟩
    | ok v =>
        refine .inr ⟨v, rfl, ?_⟩
        by_contra hnew
        have hfresh : ∀ s ∈ ds.reverse, s.variant.name ≠ v.name := by
          intro s hs hname
          exact hnew (by simpa using ⟨s, List.mem_reverse.mp hs, hname⟩)
        rw [declare_of_fresh hparse hfresh] at he
        simp at he

theorem exists_readUpTo (ls : List NumberedLine) :
    ∃ before after, ls = before ++ after ∧
      ReadUpTo before after ((collect [] ls).1.map (·.variant)) ∧
      List.Forall₂ Declares before (collect [] ls).1 := by
  cases hfault : (collect [] ls).2 with
  | none =>
      have hcollect : collect [] ls = ((collect [] ls).1, none) := Prod.ext rfl hfault
      exact ⟨ls, [], by simp, readUpTo_of_collect hcollect (by simp),
        (collect_eq_none_iff.mp hcollect).1⟩
  | some e =>
      obtain ⟨before, l, after, ds, rfl, hbefore, he⟩ := exists_declare_error hfault
      have hds : (collect [] (before ++ l :: after)).1 = ds := by
        rw [collect_append hbefore, collect_cons_error he, List.append_nil]
      rw [hds]
      refine ⟨before, l :: after, rfl, readUpTo_of_collect hbefore ?_,
        (collect_eq_none_iff.mp hbefore).1⟩
      intro l' hl'
      rw [← Option.some.inj hl']
      exact ⟨e, by simpa using he⟩

theorem map_declared {ls : List NumberedLine} {ds : List Declared}
    (h : List.Forall₂ Declares ls ds) :
    ds.map (fun d => (d.line, d.variant.name, d.variant.fields.length)) =
      List.zipWith nodeFacts ls (ds.map (·.variant)) := by
  induction h with
  | nil => rfl
  | cons hread _ ih => simp [nodeFacts, hread.2, ih]

namespace Loading

theorem declared_ofNumbered {base : String} (hbase : isIdentifier base = true)
    (ls : List NumberedLine) : (ofNumbered base ls).declared = (collect [] ls).1 := by
  simp only [ofNumbered, hbase, if_true]
  cases (collect [] ls).2 with
  | some e => rfl
  | none =>
      by_cases hempty : (collect [] ls).1 = []
      · simp [hempty]
      · simp [hempty]

theorem declared_of_not_isIdentifier {base : String} (hbase : isIdentifier base = false)
    (ls : List NumberedLine) : (ofNumbered base ls).declared = [] := by
  simp [ofNumbered, hbase]

theorem node?_events (l : Loading) : l.events.filterMap Event.node? =
    l.declared.map fun d => (d.line, d.variant.name, d.variant.fields.length) := by
  have hread : ∀ ds : List Declared, (ds.map fun d =>
      Event.nodeRead d.line d.variant.name d.variant.fields.length).filterMap Event.node? =
        ds.map fun d => (d.line, d.variant.name, d.variant.fields.length) := by
    intro ds
    simp [List.filterMap_map, Function.comp_def, Event.node?]
  unfold events
  cases l.result with
  | ok s => simp [hread, Event.node?]
  | error e => exact hread l.declared

/-- Loading tells of nodes and of the schema only. -/
theorem filterMap_events {β : Type} {f : Event → Option β}
    (hnode : ∀ line name count, f (.nodeRead line name count) = none)
    (hschema : ∀ base count, f (.schemaRead base count) = none) (l : Loading) :
    l.events.filterMap f = [] := by
  unfold events
  cases l.result with
  | ok s => simp [hnode, hschema]
  | error e => simp [hnode]

end Loading

namespace Options
variable {o : Options} {c : FileTree.Circumstances} {t : FileTree} {ls : List NumberedLine}
  {s : Schema}

/-- The lines of the schema that a run loads, if its file can be read. -/
def nodeLines? (o : Options) (t : FileTree) : Option (List NumberedLine) :=
  match o.schemaFile with
  | none => some (NumberedLine.ofLines Builtin.nodeLines)
  | some path => (t.readText path).toOption.map NumberedLine.ofSource

/-- The lines make a schema and the element can be used, so that the module is made. -/
structure Emits (o : Options) (ls : List NumberedLine) (s : Schema) : Prop where
  loaded : (Loading.ofNumbered o.base ls).result = .ok s
  element : ∀ e ∈ o.element, isIdentifier e = true

theorem load_of_nodeLines? (h : o.nodeLines? t = some ls) :
    ∃ source, o.load (o.schemaFile.map fun path => (path, t.readText path)) =
      .ok (.ofNumbered o.base ls, source) := by
  unfold nodeLines? at h
  cases hfile : o.schemaFile with
  | none =>
      rw [hfile] at h
      obtain rfl := Option.some.inj h
      exact ⟨Builtin.source, by rw [Option.map_none, load, Loading.ofLines]⟩
  | some path =>
      rw [hfile] at h
      cases hread : t.readText path with
      | error why => simp [hread, Except.toOption] at h
      | ok source =>
          simp only [hread, Except.toOption, Option.map_some] at h
          obtain rfl := Option.some.inj h
          exact ⟨source, by simp only [Option.map_some, hread, load, Loading.ofSource]⟩

/-- A schema file that cannot be read ends the run before there is an event. -/
theorem preparation_of_unread (h : o.nodeLines? t = none) :
    ∃ failure, o.preparation t = ⟨[], .error failure⟩ := by
  unfold nodeLines? at h
  cases hfile : o.schemaFile with
  | none => simp [hfile] at h
  | some path =>
      rw [hfile] at h
      cases hread : t.readText path with
      | ok source => simp [hread, Except.toOption] at h
      | error why =>
          refine ⟨.files (.readSchema path why), ?_⟩
          simp [preparation, prepare, hfile, hread, load]

theorem preparation_of_emits (hls : o.nodeLines? t = some ls) (h : o.Emits ls s) :
    o.preparation t =
      ⟨(Loading.ofNumbered o.base ls).events ++
          .generating o.base (UnionNames.make o.base o.element).element ::
            (UnionNames.make s.base o.element).emissionEvents s.variants,
        .ok ⟨o.modulePath, s.moduleText o.element⟩⟩ := by
  obtain ⟨source, hload⟩ := load_of_nodeLines? hls
  have hbase := (base_of_load hload h.loaded).1
  simp only [preparation, prepare, hload, h.loaded, names_eq_ok h.element, Schema.modulePath,
    Schema.moduleDir, Schema.moduleText, hbase, modulePath]
  rfl

theorem preparation_of_not_emits (hls : o.nodeLines? t = some ls) (h : ∀ s, ¬ o.Emits ls s) :
    ∃ failure, o.preparation t = ⟨(Loading.ofNumbered o.base ls).events, .error failure⟩ := by
  obtain ⟨source, hload⟩ := load_of_nodeLines? hls
  cases hresult : (Loading.ofNumbered o.base ls).result with
  | error fault => exact ⟨.schema fault source, by simp only [preparation, prepare, hload, hresult]⟩
  | ok s =>
      cases hnames : o.names with
      | error failure =>
          exact ⟨failure, by simp only [preparation, prepare, hload, hresult, hnames]⟩
      | ok names =>
          exfalso
          refine h s ⟨hresult, ?_⟩
          intro e he
          by_contra hnot
          simp [Options.names, Option.mem_def.mp he, hnot] at hnames

def writingEvents (o : Options) (outcome : Outcome) (text : String) : List Event :=
  if o.mode = .write ∧ outcome.exit = 0 then [.moduleWritten o.modulePath text.utf8ByteSize] else []

theorem run_tells_of_error (c : FileTree.Circumstances) {failure : Failure}
    (h : (o.preparation t).result = .error failure) :
    (o.run c t).1.Tells (o.preparation t).events := by
  rw [run_of_error h]
  exact Outcome.tells_err 1 _ _

theorem run_tells_of_ok (c : FileTree.Circumstances) {text : String}
    (h : (o.preparation t).result = .ok ⟨o.modulePath, text⟩) :
    (o.run c t).1.Tells ((o.preparation t).events ++ o.writingEvents (o.run c t).1 text) := by
  cases hmode : o.mode with
  | print =>
      rw [run_print hmode h, writingEvents, if_neg (by simp [hmode]), List.append_nil]
      exact Outcome.tells_out 0 _ _
  | check =>
      rw [run_check hmode h, writingEvents, if_neg (by simp [hmode]), List.append_nil]
      cases t.freshness o.modulePath text with
      | error fault => exact Outcome.tells_err 1 _ _
      | ok freshness =>
          cases freshness with
          | upToDate => exact Outcome.tells_out 0 _ _
          | stale => exact Outcome.tells_err 1 _ _
          | missing => exact Outcome.tells_err 1 _ _
  | write =>
      rcases hsave : t.save c o.modulePath text.toUTF8 with ⟨fault | _, t'⟩
      · rw [run_write hmode h hsave, writingEvents,
          if_neg (by simp [Product.saved, Outcome.failed]), List.append_nil]
        exact Outcome.tells_err 1 _ _
      · rw [run_write hmode h hsave, writingEvents, if_pos ⟨hmode, rfl⟩]
        exact Outcome.tells_out 0 _ _

end Options

structure LoadingLogged (base : String) (ls : List NumberedLine) (log : List Event) : Prop where
  unnamed : isIdentifier base = false → log.filterMap Event.node? = []
  /-- Otherwise lines are read in order, up to the first that is refused. -/
  named : isIdentifier base = true → ∃ before after vs, ls = before ++ after ∧
    ReadUpTo before after vs ∧ log.filterMap Event.node? = List.zipWith nodeFacts before vs
  /-- If they make a schema, all lines are read. -/
  loaded : ∀ s, (Loading.ofNumbered base ls).result = .ok s →
    ReadUpTo ls [] s.variants ∧ log.filterMap Event.node? = List.zipWith nodeFacts ls s.variants

structure EmissionLogged (o : Options) (s : Schema) (outcome : Outcome) (t' : FileTree)
    (log : List Event) : Prop where
  boxed : log.filterMap Event.boxed? =
    s.variants.flatMap (UnionNames.make s.base o.element).boxedFields
  /-- Boxing the fields that are told of, by variant and position, gives the text. -/
  replayed : s.moduleText o.element = plainModule s.base (s.variants.map
    (·.boxedAt ((log.filterMap Event.boxed?).map fun (name, i, _) => (name, i))))
  emitted : log.filterMap Event.emitted? = [(s.moduleText o.element).toUTF8.size]
  printed : o.mode = .print → outcome.output = s.moduleText o.element
  written : o.mode = .write → outcome.exit = 0 →
    t'.read o.modulePath = .ok (s.moduleText o.element).toUTF8 ∧
      log.filterMap Event.written? = [(s.moduleText o.element).toUTF8.size]
  unwritten : ¬ (o.mode = .write ∧ outcome.exit = 0) → log.filterMap Event.written? = []

theorem loadingLogged_of_events {base : String} {ls : List NumberedLine} {log : List Event}
    (h : log.filterMap Event.node? = (Loading.ofNumbered base ls).events.filterMap Event.node?) :
    LoadingLogged base ls log := by
  rw [Loading.node?_events] at h
  refine ⟨?_, ?_, ?_⟩
  · intro hbase
    rw [h, Loading.declared_of_not_isIdentifier hbase]
    rfl
  · intro hbase
    obtain ⟨before, after, hls, hread, hdeclares⟩ := exists_readUpTo ls
    refine ⟨before, after, _, hls, hread, ?_⟩
    rw [h, Loading.declared_ofNumbered hbase, map_declared hdeclares]
  · intro s hs
    obtain ⟨hbase, -, vs, hread, hnodup, rfl⟩ := Loading.ofNumbered_eq_ok_iff.mp hs
    obtain ⟨ds, hds, rfl⟩ := exists_declared hread
    have hcollect : collect [] ls = (ds, none) := by
      rw [collect_eq_none_iff]
      exact ⟨hds, by simpa [Function.comp_def] using hnodup, by simp⟩
    refine ⟨⟨hread, hnodup, by simp⟩, ?_⟩
    rw [h, Loading.declared_ofNumbered hbase, hcollect, map_declared hds]

namespace UnionNames
variable (names : UnionNames)

theorem exists_of_mem_boxingEvents {v : Variant} {e : Event} (h : e ∈ names.boxingEvents v) :
    ∃ i field, e = .fieldBoxed v.name i field := by
  simp only [boxingEvents, List.mem_filterMap] at h
  obtain ⟨⟨field, i⟩, -, hevent⟩ := h
  split at hevent
  · exact absurd hevent (by simp)
  · exact ⟨i, field, (Option.some.inj hevent).symm⟩

/-- Besides boxed fields, making a module tells of its size. -/
theorem filterMap_emissionEvents {β : Type} {f : Event → Option β}
    (hbox : ∀ name i field, f (.fieldBoxed name i field) = none) (vs : List Variant) :
    (names.emissionEvents vs).filterMap f =
      [Event.unionEmitted names.base vs.length (names.moduleText vs).utf8ByteSize].filterMap f := by
  have hboxing : (vs.flatMap names.boxingEvents).filterMap f = [] := by
    rw [List.filterMap_eq_nil_iff]
    intro e he
    obtain ⟨v, -, hv⟩ := List.mem_flatMap.mp he
    obtain ⟨i, field, rfl⟩ := names.exists_of_mem_boxingEvents hv
    exact hbox v.name i field
  rw [emissionEvents, List.filterMap_append, hboxing, List.nil_append]

end UnionNames

namespace Options
variable {o : Options} {c : FileTree.Circumstances} {t : FileTree} {ls : List NumberedLine}
  {s : Schema}

theorem filterMap_writingEvents {β : Type} {f : Event → Option β}
    (hwritten : ∀ path bytes, f (.moduleWritten path bytes) = none) (outcome : Outcome)
    (text : String) : (o.writingEvents outcome text).filterMap f = [] := by
  unfold writingEvents
  split_ifs
  · simp [hwritten]
  · rfl

/-- The log of a run that makes the module, in parts: loading, making the text, writing it. -/
theorem filterMap_log_of_emits {β : Type} {f : Event → Option β}
    (hgenerating : ∀ base element, f (.generating base element) = none)
    (hls : o.nodeLines? t = some ls) (h : o.Emits ls s) :
    ((o.run c t).1.log (.level .trace)).filterMap f =
      (Loading.ofNumbered o.base ls).events.filterMap f ++
        ((UnionNames.make s.base o.element).emissionEvents s.variants).filterMap f ++
        (o.writingEvents (o.run c t).1 (s.moduleText o.element)).filterMap f := by
  have hprepare := preparation_of_emits hls h
  have htells := run_tells_of_ok c (congrArg Preparation.result hprepare)
  rw [htells.log_trace, hprepare, List.filterMap_append, List.filterMap_append,
    List.filterMap_cons_none (hgenerating _ _)]

theorem log_of_error {events : List Event} {failure : Failure}
    (h : o.preparation t = ⟨events, .error failure⟩) :
    (o.run c t).1.log (.level .trace) = events := by
  have htells := run_tells_of_error c (congrArg Preparation.result h)
  rw [htells.log_trace, h]

theorem log_of_not_emits (hls : o.nodeLines? t = some ls) (h : ∀ s, ¬ o.Emits ls s) :
    (o.run c t).1.log (.level .trace) = (Loading.ofNumbered o.base ls).events := by
  obtain ⟨failure, hprepare⟩ := preparation_of_not_emits hls h
  exact log_of_error hprepare

theorem log_of_unread (h : o.nodeLines? t = none) : (o.run c t).1.log (.level .trace) = [] := by
  obtain ⟨failure, hprepare⟩ := preparation_of_unread h
  exact log_of_error hprepare

theorem run_loadingLogged (hls : o.nodeLines? t = some ls) :
    LoadingLogged o.base ls ((o.run c t).1.log (.level .trace)) := by
  apply loadingLogged_of_events
  by_cases h : ∃ s, o.Emits ls s
  · obtain ⟨s, hs⟩ := h
    have hemission := (UnionNames.make s.base o.element).filterMap_emissionEvents
      (f := Event.node?) (fun _ _ _ => rfl) s.variants
    rw [filterMap_log_of_emits (fun _ _ => rfl) hls hs, hemission,
      filterMap_writingEvents fun _ _ => rfl, List.append_nil]
    exact List.append_nil _
  · rw [log_of_not_emits hls (not_exists.mp h)]

/-- A schema that was loaded has well-formed variants of distinct names, so boxing it by the log
gives the module. -/
theorem moduleText_of_emits (h : o.Emits ls s) :
    s.moduleText o.element = plainModule s.base (s.variants.map
      (·.boxedAt ((UnionNames.make s.base o.element).boxedPositions s.variants))) := by
  obtain ⟨-, -, vs, hread, hnodup, rfl⟩ := Loading.ofNumbered_eq_ok_iff.mp h.loaded
  apply UnionNames.moduleText_eq_plainModule _ hnodup
  intro v hv
  obtain ⟨hlength, hget⟩ := List.forall₂_iff_get.mp hread
  obtain ⟨i, hi, rfl⟩ := List.mem_iff_getElem.mp hv
  exact wellFormed_of_parse (hget i (hlength ▸ hi) hi)

theorem run_emissionLogged (hls : o.nodeLines? t = some ls) (h : o.Emits ls s) :
    EmissionLogged o s (o.run c t).1 (o.run c t).2 ((o.run c t).1.log (.level .trace)) := by
  have hmade := congrArg Preparation.result (preparation_of_emits hls h)
  have hboxed : ((o.run c t).1.log (.level .trace)).filterMap Event.boxed? =
      s.variants.flatMap (UnionNames.make s.base o.element).boxedFields := by
    rw [filterMap_log_of_emits (fun _ _ => rfl) hls h, UnionNames.boxed?_emissionEvents,
      Loading.filterMap_events (fun _ _ _ => rfl) fun _ _ => rfl,
      filterMap_writingEvents fun _ _ => rfl, List.nil_append, List.append_nil]
  have hwritten : ((o.run c t).1.log (.level .trace)).filterMap Event.written? =
      (o.writingEvents (o.run c t).1 (s.moduleText o.element)).filterMap Event.written? := by
    rw [filterMap_log_of_emits (fun _ _ => rfl) hls h,
      UnionNames.filterMap_emissionEvents _ fun _ _ _ => rfl,
      Loading.filterMap_events (fun _ _ _ => rfl) fun _ _ => rfl]
    rfl
  refine ⟨hboxed, ?_, ?_, ?_, ?_, ?_⟩
  · rw [hboxed]
    exact moduleText_of_emits h
  · rw [filterMap_log_of_emits (fun _ _ => rfl) hls h,
      UnionNames.filterMap_emissionEvents _ fun _ _ _ => rfl,
      Loading.filterMap_events (fun _ _ _ => rfl) fun _ _ => rfl,
      filterMap_writingEvents fun _ _ => rfl]
    rfl
  · intro hmode
    rw [run_print hmode hmade, Product.printed, Outcome.output_events]
    rfl
  · intro hmode hexit
    obtain ⟨l, text, hmade', hputs⟩ := run_write_puts hmode hexit
    obtain rfl : s.moduleText o.element = text :=
      congrArg Product.text (Except.ok.inj (hmade.symm.trans hmade'))
    refine ⟨hputs.read, ?_⟩
    rw [hwritten, writingEvents, if_pos ⟨hmode, hexit⟩]
    rfl
  · intro hnot
    rw [hwritten, writingEvents, if_neg hnot]
    rfl

end Options

theorem Ending.outcome_tells (ending : Ending) : ending.outcome.Tells [] := by
  cases ending with
  | misuse => exact ⟨.misuse, rfl, by simp⟩
  | version => exact Outcome.tells_out 0 [] _
  | help => exact Outcome.tells_out 0 [] _

theorem exists_tells_runCommand (c : FileTree.Circumstances) (args : List String) (t : FileTree) :
    ∃ events, (runCommand c args t).1.Tells events := by
  cases hargs : Options.ofArguments args with
  | error ending =>
      rw [runCommand_of_error hargs]
      exact ⟨[], ending.outcome_tells⟩
  | ok o =>
      rw [runCommand_of_ok hargs]
      cases h : (o.preparation t).result with
      | error failure => exact ⟨_, Options.run_tells_of_error c h⟩
      | ok product =>
          have hpath := Options.path_of_preparation h
          obtain ⟨path, text⟩ := product
          subst hpath
          exact ⟨_, Options.run_tells_of_ok c h⟩

/-- At the lowest threshold the log is what happened. Its lines stand on the error stream before
anything else, however they are written. There are none if the arguments end the run or the schema
file cannot be read. They tell of the nodes up to the first line that is refused. If the module is
made, they tell of the boxed fields, and of the size of the text and of the file that is written. -/
theorem log_faithful (c : FileTree.Circumstances) (args : List String) (t : FileTree) :
    let outcome := (runCommand c args t).1
    let log := outcome.log (.level .trace)
    (∀ w : Wording, outcome.errors w (.level .trace) =
      String.join (log.map w.line) ++ outcome.remarks w) ∧
    (∀ ending, Options.ofArguments args = .error ending → log = []) ∧
    ∀ o, Options.ofArguments args = .ok o →
      (o.nodeLines? t = none → log = []) ∧
      ∀ ls, o.nodeLines? t = some ls →
        LoadingLogged o.base ls log ∧
        (∀ s, o.Emits ls s → EmissionLogged o s outcome (runCommand c args t).2 log) ∧
        ((∀ s, ¬ o.Emits ls s) → log.filterMap Event.boxed? = [] ∧
          log.filterMap Event.emitted? = [] ∧ log.filterMap Event.written? = []) := by
  dsimp only
  refine ⟨?_, ?_, ?_⟩
  · intro w
    obtain ⟨events, htells⟩ := exists_tells_runCommand c args t
    exact htells.errors_eq w _
  · intro ending hargs
    rw [runCommand_of_error hargs]
    exact ending.outcome_tells.log_trace
  · intro o hargs
    rw [runCommand_of_ok hargs]
    refine ⟨Options.log_of_unread, ?_⟩
    intro ls hls
    refine ⟨Options.run_loadingLogged hls, fun s hs => Options.run_emissionLogged hls hs, ?_⟩
    intro hnot
    rw [Options.log_of_not_emits hls hnot]
    exact ⟨Loading.filterMap_events (fun _ _ _ => rfl) (fun _ _ => rfl) _,
      Loading.filterMap_events (fun _ _ _ => rfl) (fun _ _ => rfl) _,
      Loading.filterMap_events (fun _ _ _ => rfl) (fun _ _ => rfl) _⟩

/-- The lines of nodes are numbered with the comment and the blank line among them. The element is
boxed in front only, the union everywhere. -/
theorem log_faithful_statements :
    let t : FileTree :=
      ⟨[(["nodes"], .file "# nodes\nCall | Stmt, Expr, Stmt\n\n Lit|Stmt".toUTF8)]⟩
    let o : Options := ⟨"gen", some "nodes", "Expr", some "Stmt", .write⟩
    let s : Schema := ⟨"Expr", [⟨"Call", ["Stmt", "Expr", "Stmt"]⟩, ⟨"Lit", ["Stmt"]⟩]⟩
    let args := ["-s", "nodes", "-e", "Stmt", "gen"]
    let outcome := (runCommand .plain args t).1
    let log := outcome.log (.level .trace)
    Options.ofArguments args = .ok o ∧ outcome.exit = 0 ∧
      log.filterMap Event.node? = [(2, "Call", 3), (4, "Lit", 1)] ∧
      log.filterMap Event.boxed? = [("Call", 0, "Stmt"), ("Call", 1, "Expr"), ("Lit", 0, "Stmt")] ∧
      log.filterMap Event.written? = [(s.moduleText o.element).toUTF8.size] ∧
      (runCommand .plain args t).2.read o.modulePath = .ok (s.moduleText o.element).toUTF8 := by
  intro t o s args outcome log
  let ls : List NumberedLine := [⟨2, "Call | Stmt, Expr, Stmt"⟩, ⟨4, " Lit|Stmt"⟩]
  have hargs : Options.ofArguments args = .ok o := by decide +kernel
  have hexit : outcome.exit = 0 := by decide +kernel
  have hls : o.nodeLines? t = some ls := by decide +kernel
  have hemits : o.Emits ls s := ⟨by decide +kernel, by decide +kernel⟩
  obtain ⟨-, -, hrun⟩ := log_faithful .plain args t
  obtain ⟨hloading, hemission, -⟩ := (hrun o hargs).2 ls hls
  have hlogged := hemission s hemits
  refine ⟨hargs, hexit, ?_, ?_, (hlogged.written rfl hexit).2, (hlogged.written rfl hexit).1⟩
  · rw [(hloading.loaded s hemits.loaded).2]
    rfl
  · rw [hlogged.boxed]
    decide +kernel

end TaggedUnion
