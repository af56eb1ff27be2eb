import DesignGraph.Command.Run
import DesignGraph.Proofs.Settings.Search

/-! # How reading settings fails

A run announces some problems as problems of its settings; the others are only passed on, as if they were
defects of the program. A settings file is meant to lead to settings or to an announced problem. If it holds no
option of the search, it does so exactly if it is found out about, if what is read of it is a text in which every
value names something, if its keys are texts, and if the file of variables is readable once it is looked at
(`Manageable`, `settings_foreseen_iff`). With options in it other problems are passed on, some of them by the
library alone.

* `foreseen_bind_iff`: of two steps, the first one is foreseen, and so is the second one if it is reached.
* `Plain.foreseen_iff`: nothing that goes wrong in the search is announced. -/

namespace DesignGraph.Settings

open Storage (Found Path)
open Yaml (Value)

/-! ### Announced problems -/

section Except

variable {ε α β : Type} {x : Except Problem α} {f : α → Except Problem β}

/-- There is a result, or a problem that a run announces. -/
def Foreseen (x : Except Problem α) : Prop := (∃ a, x = .ok a) ∨ ∃ p, x = .error p ∧ p.isForeseen

instance (x : Except Problem α) : Decidable (Foreseen x) :=
  match x with
  | .ok a => .isTrue (.inl ⟨a, rfl⟩)
  | .error p => decidable_of_iff (p.isForeseen = true) (by simp [Foreseen])

/-- Nothing that goes wrong is announced. -/
def Unannounced (x : Except Problem α) : Prop := ∀ p, x = .error p → p.isForeseen = false

theorem foreseen_ok (a : α) : Foreseen (.ok a : Except Problem α) := .inl ⟨a, rfl⟩

theorem foreseen_error_iff {p : Problem} : Foreseen (.error p : Except Problem α) ↔ p.isForeseen := by
  simp [Foreseen]

theorem Unannounced.foreseen_iff (h : Unannounced x) : Foreseen x ↔ ∃ a, x = .ok a := by
  cases x with
  | ok a => simp [foreseen_ok]
  | error p => simp [foreseen_error_iff, h p rfl]

/-- **Two steps**: the first one is foreseen, and so is the second one if it is reached. -/
theorem foreseen_bind_iff : Foreseen (x >>= f) ↔ Foreseen x ∧ ∀ a, x = .ok a → Foreseen (f a) := by
  cases x with
  | ok a => simp [bind, Except.bind, foreseen_ok]
  | error p => simp [bind, Except.bind, foreseen_error_iff]

theorem unannounced_ok (a : α) : Unannounced (.ok a : Except Problem α) := fun _ h => by cases h

theorem unannounced_error {p : Problem} (h : p.isForeseen = false) :
    Unannounced (.error p : Except Problem α) := fun _ h' => by cases h'; exact h

theorem Unannounced.bind (hx : Unannounced x) (hf : ∀ a, Unannounced (f a)) : Unannounced (x >>= f) := by
  intro p h
  rcases bind_eq_error_iff.1 h with h | ⟨a, -, h⟩
  · exact hx p h
  · exact hf a p h

theorem unannounced_mapError {x : Except ε α} {g : ε → Problem} (h : ∀ e, (g e).isForeseen = false) :
    Unannounced (x.mapError g) := by
  intro p hp
  obtain ⟨e, -, rfl⟩ := mapError_eq_error_iff.1 hp
  exact h e

theorem unannounced_map {g : α → β} (hx : Unannounced x) : Unannounced (x.map g) := by
  cases x with
  | ok a => exact unannounced_ok (g a)
  | error p => exact unannounced_error (hx p rfl)

end Except

/-! ### The search -/

variable {lib : Library} {look : Path → Found} {environment : List (String × String)}
  {keywords : List (String × Value)} {path : Path}

theorem unannounced_dotenvText? (encoding : Value) : Unannounced (dotenvText? look encoding path) := by
  unfold dotenvText?
  split
  · exact (unannounced_mapError fun _ => rfl).bind fun _ =>
      (unannounced_mapError fun _ => rfl).bind fun text => unannounced_ok _
  · exact unannounced_error rfl
  · exact unannounced_ok none

theorem unannounced_dotenvOf_default : Unannounced (dotenvOf lib look environment .default) := by
  rw [dotenvOf_default]
  exact unannounced_map (unannounced_dotenvText? _)

theorem foreseen_ofSources (found : Sources) : Foreseen (ofSources found) := by
  unfold ofSources
  cases ofValues found.value? with
  | ok s => exact foreseen_ok s
  | error refused => exact foreseen_error_iff.2 rfl

/-- **Keywords**: all that can go wrong beside the values is the search, and it announces nothing. -/
theorem Plain.foreseen_iff (h : Plain lib keywords) : Foreseen (ofKeywords lib look environment keywords) ↔
    DotenvReadable look := by
  rw [h.ofKeywords_eq, foreseen_bind_iff, unannounced_dotenvOf_default.foreseen_iff, dotenvOf_default_iff]
  exact and_iff_left fun dotenv _ => foreseen_ofSources _

/-! ### The settings file -/

theorem fileValue_foreseen_iff : Foreseen (fileValue look path) ↔
    look path ≠ .tooLong ∧ ∀ bytes, look path = .file bytes →
      ∀ fault, Yaml.readPortions (.ofBytes bytes) = .error fault → fault = .malformed := by
  unfold fileValue
  cases look path with
  | file bytes =>
    simp only [ne_eq, reduceCtorEq, not_false_eq_true, true_and, Found.file.injEq, forall_eq']
    cases hr : Yaml.readPortions (.ofBytes bytes) with
    | ok v => simp [foreseen_ok, hr, Found.isPresent, Found.read, Except.mapError, bind, Except.bind]
    | error fault =>
      cases fault <;>
        simp [foreseen_error_iff, hr, Found.isPresent, Found.read, Except.mapError, bind, Except.bind,
          Problem.isForeseen]
  | _ =>
    simp [foreseen_error_iff, Found.isPresent, Found.read, Except.mapError, bind, Except.bind,
      Problem.isForeseen, throw, throwThe, MonadExceptOf.throw]

theorem isForeseen_of_keyFault? {key : Yaml.Atom} {p : Problem} (h : keyFault? key = some p) :
    p.isForeseen = false := by
  unfold keyFault? at h
  split at h
  · cases h
  · cases h
  · obtain ⟨i, -, rfl⟩ := Option.map_eq_some_iff.1 h
    rfl
  · obtain rfl := Option.some.inj h
    rfl

theorem unannounced_keywordsOf (entries : List (Yaml.Atom × Value)) :
    Unannounced (keywordsOf environment entries) := by
  unfold keywordsOf
  simp only
  split
  · rename_i p hp
    refine unannounced_error ?_
    rw [Option.orElse_eq_orElse, Option.orElse_eq_or, Option.or_eq_some_iff] at hp
    rcases hp with h | ⟨-, h⟩
    · obtain ⟨e, -, he⟩ := List.mem_filterMap.1 (List.mem_of_head? h)
      exact isForeseen_of_keyFault? he
    · obtain ⟨e, -, rfl⟩ := Option.map_eq_some_iff.1 h
      rfl
  · exact unannounced_ok _

/-- What is under the path is manageable as a settings file. -/
structure Manageable (look : Path → Found) (path : Path) : Prop where
  /-- It is found out about. -/
  told : look path ≠ .tooLong
  /-- What is read of a file is a text, and every value in it names something. -/
  read : ∀ bytes, look path = .file bytes →
    ∀ fault, Yaml.readPortions (.ofBytes bytes) = .error fault → fault = .malformed
  /-- The keys of a mapping are texts. -/
  keys : ∀ v, fileValue look path = .ok v → ∀ e ∈ entriesOf v, SoundKey e.1
  /-- The file of variables, which is looked at if there is a mapping, is readable. -/
  dotenv : ∀ v, fileValue look path = .ok v → Mapping v → DotenvReadable look

/-- What is read of the path holds no option. -/
def PlainFile (lib : Library) (look : Path → Found) (path : Path) : Prop :=
  ∀ v, fileValue look path = .ok v → Plain lib (textEntries v)

theorem keywordsIn_foreseen_iff {v : Value} (hv : fileValue look path = .ok v) :
    Foreseen (keywordsIn look environment path) ↔ ∀ e ∈ entriesOf v, SoundKey e.1 := by
  rw [keywordsIn_eq hv]
  split
  · simp [(unannounced_keywordsOf _).foreseen_iff, keywordsOf_eq_ok_iff]
  · rename_i hm
    simp [foreseen_error_iff, Problem.isForeseen, entriesOf_of_not_mapping hm]

/-- **A settings file** leads to settings or to an announced problem exactly if it is manageable. -/
theorem PlainFile.foreseen_iff (hno : PlainFile lib look path) :
    Foreseen (ofFile lib look environment path) ↔ Manageable look path := by
  rw [ofFile, foreseen_bind_iff]
  constructor
  · rintro ⟨hin, hsearch⟩
    have hfile := (foreseen_bind_iff.1 hin).1
    obtain ⟨htold, hread⟩ := fileValue_foreseen_iff.1 hfile
    have hkeys : ∀ v, fileValue look path = .ok v → ∀ e ∈ entriesOf v, SoundKey e.1 :=
      fun v hv => (keywordsIn_foreseen_iff hv).1 hin
    refine ⟨htold, hread, hkeys, fun v hv hm => ?_⟩
    exact (hno v hv).kept.foreseen_iff.1 (hsearch _ ((keywordsIn_eq_ok_iff hv).2 ⟨hm, hkeys v hv, rfl⟩))
  · rintro ⟨htold, hread, hkeys, hvariables⟩
    have hfile := fileValue_foreseen_iff.2 ⟨htold, hread⟩
    cases hv : fileValue look path with
    | error p =>
      have hin : keywordsIn look environment path = .error p := by
        rw [keywordsIn, hv]
        rfl
      rw [hv, foreseen_error_iff] at hfile
      rw [hin]
      exact ⟨foreseen_error_iff.2 hfile, fun _ h => by cases h⟩
    | ok v =>
      refine ⟨(keywordsIn_foreseen_iff hv).2 (hkeys v hv), fun keywords hin => ?_⟩
      obtain ⟨hm, -, rfl⟩ := (keywordsIn_eq_ok_iff hv).1 hin
      exact (hno v hv).kept.foreseen_iff.2 (hvariables v hv hm)

/-! ### The settings of a run -/

/-- **How reading settings fails.** Whatever is found under the paths, whatever the environment is and whatever
options the library has, a settings file without options leads to settings or to an announced problem exactly if
it is manageable. The settings of a run are found, or their problem is announced, in the same case, or if no file
is named and the file of variables is readable. -/
theorem settings_foreseen_iff (lib : Library) (look : Path → Found) (environment : List (String × String)) :
    (∀ path, PlainFile lib look path → (Foreseen (ofFile lib look environment path) ↔ Manageable look path)) ∧
      ∀ a, (a.config ≠ "" → PlainFile lib look (.ofText a.config)) →
        (Foreseen (Command.settings lib look environment a) ↔
          if a.config = "" then DotenvReadable look else Manageable look (.ofText a.config)) := by
  refine ⟨fun path hno => hno.foreseen_iff, fun a hno => ?_⟩
  have hrest : ∀ {x : Except Problem Settings} {g : Settings → Settings},
      Foreseen (x >>= fun s => pure (g s)) ↔ Foreseen x := by
    intro x g
    rw [foreseen_bind_iff]
    exact and_iff_left fun s _ => foreseen_ok (g s)
  unfold Command.settings
  by_cases hconfig : a.config = ""
  · have hnone : Foreseen (ofKeywords lib look environment []) ↔ DotenvReadable look := plain_nil.foreseen_iff
    rw [if_pos hconfig, if_pos hconfig, ← hnone]
    exact hrest
  · have hfile : Foreseen (ofFile lib look environment (.ofText a.config)) ↔ _ := (hno hconfig).foreseen_iff
    rw [if_neg hconfig, if_neg hconfig, ← hfile]
    exact hrest

/-- A file in which one key is a number, beside a file of variables. -/
def numberedFile (path : Path) : Found :=
  if path = .ofText "c.yaml" then .file (Text.encodeUtf8 "type_suffix: _t\n7: x\n")
  else if path = dotenvPath then .file (Text.encodeUtf8 "ONTOGEN_RECURSIVE=yes\n") else .nothing

/-- Without options in it the file is told about, and the key is what is passed on. -/
theorem settings_foreseen_iff_numberedFile : PlainFile .bare numberedFile (.ofText "c.yaml") ∧
    DotenvReadable numberedFile ∧ ¬ Manageable numberedFile (.ofText "c.yaml") ∧
    ¬ Foreseen (ofFile .bare numberedFile [] (.ofText "c.yaml")) := by
  obtain ⟨hfile, hrun⟩ := settings_foreseen_iff .bare numberedFile []
  have hread : (fileValue numberedFile (.ofText "c.yaml")).toOption.all (fun v =>
      decide (Plain .bare (textEntries v))) ∧ ¬ Foreseen (ofFile .bare numberedFile [] (.ofText "c.yaml")) ∧
      Foreseen (Command.settings .bare numberedFile [] .empty) := by decide +kernel
  obtain ⟨hplain, hsurprise, halone⟩ := hread
  have hno : PlainFile .bare numberedFile (.ofText "c.yaml") := by
    intro v hv
    rw [hv] at hplain
    exact of_decide_eq_true hplain
  have hvariables : DotenvReadable numberedFile := (hrun .empty fun h => absurd rfl h).1 halone
  exact ⟨hno, hvariables, fun hm => hsurprise ((hfile _ hno).2 hm), hsurprise⟩

/-- One file, with a byte that no text holds. -/
def brokenFile (path : Path) : Found := if path = .ofText "c.yaml" then .file [0xff] else .nothing

/-- **Broken files surprise**: with no library is reading them always foreseen, neither as such nor in a run. -/
theorem not_foreseen_brokenFile :
    (¬ ∃ lib : Library, ∀ look environment path, Foreseen (ofFile lib look environment path)) ∧
      ¬ ∃ lib : Library, ∀ look environment a, Foreseen (Command.settings lib look environment a) := by
  have hunread : ¬ Foreseen (fileValue brokenFile (.ofText "c.yaml")) := by decide +kernel
  have hfile : ∀ lib, ¬ Foreseen (ofFile lib brokenFile [] (.ofText "c.yaml")) := fun lib h =>
    hunread (foreseen_bind_iff.1 (foreseen_bind_iff.1 h).1).1
  constructor
  · rintro ⟨lib, h⟩
    exact hfile lib (h _ _ _)
  · rintro ⟨lib, h⟩
    have hrun := h brokenFile [] { Command.Arguments.empty with config := "c.yaml" }
    exact hfile lib (foreseen_bind_iff.1 hrun).1

end DesignGraph.Settings
