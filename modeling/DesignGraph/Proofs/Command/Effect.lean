import DesignGraph.Command.Effect
import DesignGraph.Proofs.Entity.Persist
import DesignGraph.Proofs.Storage.Saved
import DesignGraph.Proofs.Storage.Tree
import DesignGraph.Proofs.Store.Edit

/-! # A run damages no model

A run that does not succeed changes no file. One that succeeds changes at most the file it is to write, which
may be the one it has read; and what is loaded from there starts with the edges of the model that was read,
with all that they had, except for the texts that the run has generated (`runIn_harmless`).

* `run_eq_done`, `Generates.run_eq`: what a run that succeeds has found and made.
* `Store.StartsWith`: the edges of a graph in front of another one.
* `Generates.startsWith`: the vocabulary and the generated classes come behind the edges that were read. -/

namespace DesignGraph

open Storage (Found Path Tree)
open Yaml.Outline (entryValues)

/-! ### Edges in front -/

/-- The edges of `g` stand in front in `h`, as they are written, and each with its label or under a uid that
satisfies `P`. -/
def Store.StartsWith (P : Uid → Prop) (g h : Store) : Prop :=
  ∀ (i : ℕ) (e : Hyperedge), g.edges[i]? = some e → ∃ e', h.edges[i]? = some e' ∧ e'.bare = e.written.bare ∧
    (e'.label = e.label ∨ P e.uid)

namespace Store

variable {P : Uid → Prop} {g m h : Store}

theorem label_of_mem {e : Hyperedge} (he : e ∈ g.edges) : e.label = g.labelOf e.uid := by
  rw [labelOf, get?_of_mem he]
  rfl

/-- What a store that has grown is read back as starts with the edges there were. -/
theorem startsWith_of_extends (hext : Extends g m) (hlabel : ∀ u ∈ g, P u ∨ m.labelOf u = g.labelOf u)
    (hwritten : h.edges = m.edges.map Hyperedge.written) : StartsWith P g h := by
  intro i e he
  obtain ⟨added, hadded, -⟩ := hext
  have hbare : (m.edges.map Hyperedge.bare)[i]? = some e.bare := by
    rw [hadded, List.getElem?_append_left, List.getElem?_map, he]
    · rfl
    · rw [List.length_map]
      exact (List.getElem?_eq_some_iff.1 he).1
  rw [List.getElem?_map] at hbare
  obtain ⟨e', he', hsame⟩ := Option.map_eq_some_iff.1 hbare
  have huid : e'.uid = e.uid := (Hyperedge.eq_of_bare_eq hsame).1
  have hmem : e ∈ g.edges := List.mem_of_getElem? he
  refine ⟨e'.written, by rw [hwritten, List.getElem?_map, he']; rfl, ?_, ?_⟩
  · exact congrArg Hyperedge.written hsame
  · change e'.label = e.label ∨ _
    rw [label_of_mem hmem, label_of_mem (List.mem_of_getElem? he'), huid]
    exact (hlabel e.uid (mem_def.2 ⟨e, hmem, rfl⟩)).symm

end Store

namespace Command

variable {lib : Settings.Library} {look : Path → Found} {environment : List (String × String)}
  {words : List String} {a : Arguments} {input output : String} {s : Settings} {g h model : Store}
  {report : Entity.Report} {path : Path}

/-! ### Runs that succeed -/

/-- A run with this command line has read a model from the input, and generated this other one. -/
structure Generates (lib : Settings.Library) (look : Path → Found) (environment : List (String × String))
    (words : List String) (a : Arguments) (input output : String) (s : Settings) (g : Store)
    (report : Entity.Report) (model : Store) : Prop where
  arguments : Arguments.read words = .ok a
  files : ∃ rest, a.files = some input :: some output :: rest
  settings : settings lib look environment a = .ok s
  loaded : Model.load look (.ofText input) = .ok g
  generated : ∃ trace, (Ontology.ofStore .algorithms g).store.generate s a.uid a.label = .ok (report, trace) ∧
    trace.store = model
  free : (look (.ofText output)).writeFault? = none

theorem generate_eq_done {output? : Option String} (h : generate look a s g output? = .done report path model) :
    ∃ output trace, output? = some output ∧ path = .ofText output ∧
      (Ontology.ofStore .algorithms g).store.generate s a.uid a.label = .ok (report, trace) ∧
      trace.store = model ∧ (look path).writeFault? = none := by
  unfold generate at h
  simp only at h
  split at h
  · cases h
  rename_i report' trace hgenerate
  split at h
  · cases h
  rename_i output
  split at h
  · cases h
  rename_i hfree
  cases h
  exact ⟨output, trace, rfl, rfl, hgenerate, rfl, Option.map_eq_none_iff.1 hfree⟩

theorem run_eq_done (h : run lib look environment words = .done report path model) :
    ∃ a input output s g, path = .ofText output ∧
      Generates lib look environment words a input output s g report model := by
  unfold run at h
  split at h
  · cases h
  · cases h
  rename_i a ha
  unfold runWith at h
  split at h
  · cases h
  rename_i s hs
  split at h
  · rename_i input rest hfiles
    split at h
    · cases h
    rename_i g hg
    obtain ⟨output, trace, hout, hpath, hgenerate, hmodel, hfree⟩ := generate_eq_done h
    obtain ⟨rest, rfl⟩ : ∃ rest', rest = some output :: rest' := by
      cases rest with
      | nil => cases hout
      | cons file rest => exact ⟨rest, by rw [show file = some output from hout]⟩
    exact ⟨a, input, output, s, g, hpath, ha, ⟨rest, hfiles⟩, hs, hg, ⟨trace, hgenerate, hmodel⟩, hpath ▸ hfree⟩
  · cases h

/-- What is given of a run that succeeds is all that it takes. -/
theorem Generates.run_eq (h : Generates lib look environment words a input output s g report model) :
    run lib look environment words = .done report (.ofText output) model := by
  obtain ⟨rest, hfiles⟩ := h.files
  obtain ⟨trace, hgenerate, rfl⟩ := h.generated
  have hfree : Model.writeProblem? look (.ofText output) = none := by
    rw [Model.writeProblem?, h.free, Option.map_none]
  unfold run
  simp only [h.arguments]
  unfold runWith
  simp only [h.settings, hfiles, h.loaded]
  unfold generate
  simp only [hgenerate, List.headD_cons, hfree]

theorem generate_ne_help {output? : Option String} : generate look a s g output? ≠ .help := by
  intro h
  unfold generate at h
  simp only at h
  split at h
  · cases h
  split at h
  · cases h
  split at h <;> cases h

/-- Only who asks for help gets it. -/
theorem read_of_run_eq_help (h : run lib look environment words = .help) : Arguments.read words = .error .help := by
  unfold run at h
  split at h
  · assumption
  · cases h
  unfold runWith at h
  split at h
  · cases h
  split at h
  · split at h
    · cases h
    · exact absurd h generate_ne_help
  · cases h

/-- A uid under which the run has stored a text. -/
def Rewritten (s : Settings) (report : Entity.Report) (u : Uid) : Prop :=
  ∃ e ∈ report.generated, u = Entity.Trace.implementationUid s e.label

theorem store_ofStore (level : Level) (he : h.edges = g.edges) :
    (Ontology.ofStore level h).store = level.copy g := by
  change level.bootstrap h.renumbered = level.bootstrap g.renumbered
  rw [Store.renumbered_congr he]

/-- Opening a model adds the vocabulary, and sets no label. -/
theorem edits_ofStore (level : Level) (g : Store) :
    Store.Edits (fun _ => False) g.renumbered (Ontology.ofStore level g).store :=
  (Store.fills_bootstrap _ level g.renumbered).edits

/-- **What was read stays in front**. -/
theorem Generates.startsWith (hgen : Generates lib look environment words a input output s g report model)
    (hwritten : h.edges = model.edges.map Hyperedge.written) :
    Store.StartsWith (Rewritten s report) g h := by
  obtain ⟨trace, hgenerate, rfl⟩ := hgen.generated
  have hopen := edits_ofStore .algorithms g
  have hstored := Store.stored_generate hgenerate
  refine Store.startsWith_of_extends (hopen.extends_.trans hstored.extended) (fun u hu => ?_) hwritten
  by_cases hnew : Rewritten s report u
  · exact .inl hnew
  · have hstart : (Ontology.ofStore .algorithms g).store.labelOf u = g.labelOf u := by
      rw [Store.labelOf, hopen.get?_eq hu id]
      rfl
    have hother : ∀ e ∈ report.generated, u ≠ e.implementation := fun e he hue =>
      hnew ⟨e, he, hue.trans (hstored.stored e he).1⟩
    exact .inr ((hstored.others u (hopen.extends_.mem hu) hother).trans hstart)

/-! ### The files -/

theorem returned?_eq_zero {o : Outcome} (h : o.returned? = some 0) :
    o = .help ∨ ∃ report path model, o = .done report path model := by
  cases o with
  | help => exact .inl rfl
  | done report path model => exact .inr ⟨report, path, model, rfl⟩
  | notSaved report why =>
    change (if why.isForeseen then some 3 else none) = some 0 at h
    split at h <;> cases h
  | noSettings why =>
    change (if why.isForeseen then some 1 else none) = some 0 at h
    split at h <;> cases h
  | noModel why =>
    change (if why.isForeseen then some 1 else none) = some 0 at h
    split at h <;> cases h
  | usage why => cases h
  | noPath => cases h
  | noMatch why => cases h

theorem after_of_returned?_ne_zero {o : Outcome} (h : o.returned? ≠ some 0) (t : Tree) : o.after t = t := by
  cases o with
  | done report path model => exact absurd rfl h
  | _ => rfl

theorem fst_runIn (t : Tree) (environment : List (String × String)) (words : List String) :
    (runIn lib t environment words).1 = run lib t.look environment words := rfl

theorem snd_runIn {o : Outcome} {t : Tree} (h : run lib t.look environment words = o) :
    (runIn lib t environment words).2 = o.after t := by
  rw [← h]
  rfl

/-- **A run damages no model**. If it does not return success, be it that it returns something else or that a
problem escapes from it, or if it only gives help, all files are as they were. It returns success otherwise just
if it reads a model, generates another one and can write it. Then the path of the output is the only one under
which something has changed, and the text of the generated model is there. It is loaded as a model that starts
with the edges of the input, if it stands for the document that it was made from. -/
theorem runIn_harmless (lib : Settings.Library) (t : Tree) (environment : List (String × String))
    (words : List String) :
    ((runIn lib t environment words).1.returned? ≠ some 0 ∨ Arguments.read words = .error .help →
      (runIn lib t environment words).2 = t) ∧
    ((runIn lib t environment words).1.returned? = some 0 ∧ Arguments.read words ≠ .error .help ↔
      ∃ a input output s g report model,
        Generates lib t.look environment words a input output s g report model) ∧
    ∀ a input output s g report model, Generates lib t.look environment words a input output s g report model →
      Tree.ChangesOnly (.ofText output) t (runIn lib t environment words).2 ∧
      (runIn lib t environment words).2.look (.ofText output) = .file (Text.encodeUtf8 model.toYaml) ∧
      (Yaml.read model.toYaml = .ok (.map (entryValues model.document)) → ∃ h,
        Model.load (runIn lib t environment words).2.look (.ofText output) = .ok h ∧
          Store.StartsWith (Rewritten s report) g h) := by
  rw [fst_runIn]
  refine ⟨fun hstop => ?_, ⟨fun ⟨hreturn, hhelp⟩ => ?_, ?_⟩, fun a input output s g report model hgen => ?_⟩
  · rcases hstop with hreturn | hhelp
    · exact (snd_runIn rfl).trans (after_of_returned?_ne_zero hreturn t)
    · have hrun : run lib t.look environment words = .help := by rw [run, hhelp]
      exact snd_runIn hrun
  · rcases returned?_eq_zero hreturn with hrun | ⟨report, path, model, hrun⟩
    · exact absurd (read_of_run_eq_help hrun) hhelp
    · obtain ⟨a, input, output, s, g, -, hgen⟩ := run_eq_done hrun
      exact ⟨a, input, output, s, g, report, model, hgen⟩
  · rintro ⟨a, input, output, s, g, report, model, hgen⟩
    refine ⟨by rw [hgen.run_eq]; rfl, ?_⟩
    rw [hgen.arguments]
    exact fun hhelp => nomatch hhelp
  · have hafter : (runIn lib t environment words).2 = t.write (.ofText output) (Text.encodeUtf8 model.toYaml) :=
      snd_runIn hgen.run_eq
    have hfile : (runIn lib t environment words).2.look (.ofText output) =
        .file (Text.encodeUtf8 model.toYaml) := by
      rw [hafter]
      exact Tree.look_write hgen.free
    refine ⟨hafter ▸ Tree.changesOnly_write hgen.free, hfile, fun htext => ?_⟩
    obtain ⟨h, hload, hwritten⟩ := Model.load_saved hfile htext
    exact ⟨h, hload, hgen.startsWith hwritten⟩

/-! ### A model written over itself -/

open Hyperedge in
/-- One algorithm. -/
def filterEdges : List Hyperedge :=
  [concept "F" "L", fact "G" "" ["F"] [Vocabulary.algorithm] Vocabulary.isA]

/-- A file that holds these edges, in a directory beside the one of the run. -/
def filterFile : Tree := ⟨["w"], [(["w"], none), (["d"], none), (["d", "m.yml"], some (Text.encodeUtf8 (
  "hyperedges: [\x7buid: F, label: L\x7d, \x7buid: G, kind: fact, from: [F], " ++
    "to: ['Software::Graph::Algorithm'], relation: 'ConceptGraph::IsA'\x7d]")))]⟩

/-- The file is both the input and the output, once from the root on. -/
def filterArguments : Arguments := ⟨[some "../d/m.yml", some "/d/m.yml"], "", "", "", false, ""⟩

theorem exists_ok_of_toOption {ε α β : Type} {x : Except ε α} {f : α → β} {b : β}
    (h : x.toOption.map f = some b) : ∃ a, x = .ok a ∧ f a = b := by
  cases x with
  | error e => cases h
  | ok a => exact ⟨a, rfl, Option.some.inj h⟩

theorem generates_filterFile : ∃ s g report model, g.edges = filterEdges ∧
    Generates .bare filterFile.look [] ["../d/m.yml", "/d/m.yml"] filterArguments "../d/m.yml" "/d/m.yml" s g
      report model := by
  have hread : Arguments.read ["../d/m.yml", "/d/m.yml"] = .ok filterArguments := by decide +kernel
  obtain ⟨s, hs, -⟩ : ∃ s, settings .bare filterFile.look [] filterArguments = .ok s ∧ s = .default :=
    exists_ok_of_toOption (f := id) (by decide +kernel)
  obtain ⟨g, hg, hedges⟩ : ∃ g, Model.load filterFile.look (.ofText "../d/m.yml") = .ok g ∧
      g.edges = filterEdges := exists_ok_of_toOption (by decide +kernel)
  obtain ⟨targets, hselect, -⟩ : ∃ targets,
      (Level.copy .algorithms (.ofEdges filterEdges)).select "" "" = .ok targets ∧
        targets.toList = ["F"] := exists_ok_of_toOption (by decide +kernel)
  have hopened : (Ontology.ofStore .algorithms g).store = Level.copy .algorithms (.ofEdges filterEdges) :=
    store_ofStore .algorithms (by rw [hedges]; decide +kernel)
  -- from here on the store is any one in which something is selected
  generalize Level.copy .algorithms (.ofEdges filterEdges) = opened at hopened hselect
  obtain ⟨report, trace, hgenerate⟩ : ∃ report trace, opened.generate s "" "" = .ok (report, trace) :=
    ⟨_, _, Store.generate_eq_ok.2 ⟨targets, hselect, rfl, rfl⟩⟩
  rw [← hopened] at hgenerate
  exact ⟨s, g, report, trace.store, hedges, hread, ⟨[], rfl⟩, hs, hg, ⟨trace, hgenerate, rfl⟩, by decide +kernel⟩

/-- The run succeeds, and leaves the generated model in place of the one that it has read. -/
theorem runIn_harmless_filterFile :
    (runIn .bare filterFile [] ["../d/m.yml", "/d/m.yml"]).1.returned? = some 0 ∧ ∃ g model : Store,
      Model.load filterFile.look (.ofText "../d/m.yml") = .ok g ∧ g.edges = filterEdges ∧
      (runIn .bare filterFile [] ["../d/m.yml", "/d/m.yml"]).2.look (.ofText "/d/m.yml") =
        .file (Text.encodeUtf8 model.toYaml) := by
  obtain ⟨s, g, report, model, hedges, hgen⟩ := generates_filterFile
  obtain ⟨-, hsucceeds, hleaves⟩ := runIn_harmless .bare filterFile [] ["../d/m.yml", "/d/m.yml"]
  exact ⟨(hsucceeds.2 ⟨_, _, _, _, _, _, _, hgen⟩).1, g, model, hgen.loaded, hedges,
    (hleaves _ _ _ _ _ _ _ hgen).2.1⟩

end Command

end DesignGraph
