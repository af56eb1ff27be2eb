import DesignGraph.Proofs.Text.LowerCase
import DesignGraph.Proofs.Text.Utf8
import DesignGraph.Settings.Sources

/-! # The search for settings

Keywords give settings if the search comes to an end and the values found are accepted. A field takes the value
that the sources give it, or its default (`Takes`, `ofValues_eq_ok_iff`). A settings file gives way to the
environment entry by entry (`kept`): an entry is dropped if the variable of its key is there, spelled with
capitals only.

* `keywordsOf_eq_ok_iff`: which keywords a file gives.
* `keyword?_kept`: a file gives way for one setting, whichever way its key is spelled.
* `Plain.ofKeywords_eq`, `Plain.ofKeywords_eq_ok_iff`: the search as long as no keyword is an option, and when it
  gives settings.
* `dotenvOf_default_iff`: when the file of variables lets it end. -/

namespace DesignGraph.Settings

open Storage (Found Path)
open Yaml (Atom Value)

/-! ### Computations that may fail -/

section Except

variable {ε ε' α β : Type} {x : Except ε α} {f : α → Except ε β} {g : ε → ε'} {a : α} {b : β} {e : ε}
  {e' : ε'}

theorem bind_eq_ok_iff : (x >>= f) = .ok b ↔ ∃ a, x = .ok a ∧ f a = .ok b := by
  cases x <;> simp [bind, Except.bind]

theorem bind_eq_error_iff : (x >>= f) = .error e ↔ x = .error e ∨ ∃ a, x = .ok a ∧ f a = .error e := by
  cases x <;> simp [bind, Except.bind]

theorem toOption_eq_some_iff : x.toOption = some a ↔ x = .ok a := by
  cases x <;> simp [Except.toOption]

theorem mapError_eq_ok_iff : x.mapError g = .ok a ↔ x = .ok a := by
  cases x <;> simp [Except.mapError]

theorem mapError_eq_error_iff : x.mapError g = .error e' ↔ ∃ e, x = .error e ∧ g e = e' := by
  cases x <;> simp [Except.mapError]

end Except

/-! ### What a setting takes -/

/-- What a setting holds. -/
@[reducible] def Field.Content : Field → Type
  | implementationUid => String
  | implementationLabel => String
  | datatypeUid => Option String
  | recursive => Bool
  | typeSuffix => String
  | logLevel => String

/-- The content of a setting. -/
def content (s : Settings) : (f : Field) → f.Content
  | .implementationUid => s.implementationUid
  | .implementationLabel => s.implementationLabel
  | .datatypeUid => s.datatypeUid
  | .recursive => s.recursive
  | .typeSuffix => s.typeSuffix
  | .logLevel => s.logLevel

/-- What a value means for a setting, if it is accepted. -/
def Field.read? : (f : Field) → Value → Option f.Content
  | implementationUid => solidText?
  | implementationLabel => Value.text?
  | datatypeUid => optionalText?
  | recursive => truth?
  | typeSuffix => Value.text?
  | logLevel => level?

/-- The setting holds what the value means, or its default if there is no value. -/
def Takes (s : Settings) (f : Field) (v? : Option Value) : Prop :=
  given (default.content f) f.read? v? = some (s.content f)

variable {s : Settings} {f : Field}

/-- **Values are accepted** if every setting takes its own. -/
theorem ofValues_eq_ok_iff {get : Field → Option Value} : ofValues get = .ok s ↔ ∀ f, s.Takes f (get f) := by
  constructor
  · intro h f
    unfold ofValues at h
    simp only at h
    split at h
    · obtain rfl := Except.ok.inj h
      cases f <;> assumption
    · cases h
  · intro h
    have huid : given default.implementationUid solidText? (get .implementationUid) =
        some s.implementationUid := h .implementationUid
    have hlabel : given default.implementationLabel Value.text? (get .implementationLabel) =
        some s.implementationLabel := h .implementationLabel
    have hdatatype : given default.datatypeUid optionalText? (get .datatypeUid) = some s.datatypeUid :=
      h .datatypeUid
    have hrecursive : given default.recursive truth? (get .recursive) = some s.recursive := h .recursive
    have hsuffix : given default.typeSuffix Value.text? (get .typeSuffix) = some s.typeSuffix := h .typeSuffix
    have hlevel : given default.logLevel level? (get .logLevel) = some s.logLevel := h .logLevel
    simp only [ofValues, huid, hlabel, hdatatype, hrecursive, hsuffix, hlevel]

/-! ### The entries of a settings file -/

variable {lib : Library} {look : Path → Found} {environment : List (String × String)}
  {keywords : List (String × Value)} {path : Path} {p : Problem}

/-- The entries of a mapping; nothing else has any. -/
def entriesOf (v : Value) : List (Atom × Value) := v.entries?.getD []

/-- The entries whose keys are texts. -/
def textEntries (v : Value) : List (String × Value) := (entriesOf v).filterMap fun e => match e.1 with
  | .text key => some (key, e.2)
  | _ => none

/-- The entries that do not give way to the environment. -/
def kept (environment : List (String × String)) (entries : List (String × Value)) : List (String × Value) :=
  entries.filter fun e => !environment.any (·.1 == variableName e.1)

/-- A key that is a text, perhaps with surrogates that stand for single bytes. -/
def SoundKey : Atom → Prop
  | .text _ => True
  | .points points => ∀ n ∈ points, Text.charOfPoint? n = none → 0xdc80 ≤ n ∧ n ≤ 0xdcff
  | _ => False

theorem surrogateFault?_eq_none_iff {points : List Nat} : surrogateFault? points = none ↔
    ∀ n ∈ points, Text.charOfPoint? n = none → 0xdc80 ≤ n ∧ n ≤ 0xdcff := by
  have hchars : ∀ n ∈ (variableName "").toList.map Char.toNat, (Text.charOfPoint? n).isSome := by
    intro n hn
    obtain ⟨c, -, rfl⟩ := List.mem_map.1 hn
    have hvalid : c.toNat.isValidChar := c.valid
    simp [Text.charOfPoint?, hvalid]
  simp only [surrogateFault?, Option.map_eq_none_iff, List.findIdx?_eq_none_iff, List.mem_append]
  constructor
  · intro h n hn hnone
    simpa [hnone] using h n (.inr hn)
  · rintro h n (hn | hn)
    · simp [Option.isNone_eq_false_iff.2 (hchars n hn)]
    · cases hchar : Text.charOfPoint? n with
      | none => simpa using h n hn hchar
      | some c => simp

/-- Sound keys are those that no fault is found with. -/
theorem soundKey_iff {key : Atom} : SoundKey key ↔ keyFault? key = none ∧ ¬ isBytes key := by
  cases key with
  | points points => simp [SoundKey, keyFault?, isBytes, surrogateFault?_eq_none_iff]
  | _ => simp [SoundKey, keyFault?, isBytes]

theorem entriesOf_of_isVacant {v : Value} (hv : v.isVacant) : entriesOf v = [] := by
  cases v with
  | map entries => exact List.isEmpty_iff.1 hv
  | recurring number content => cases hv
  | _ => rfl

/-- **The keywords of a file** are the entries it keeps, if all its keys are sound. -/
theorem keywordsOf_eq_ok_iff {v : Value} : keywordsOf environment (entriesOf v) = .ok keywords ↔
    (∀ e ∈ entriesOf v, SoundKey e.1) ∧ keywords = kept environment (textEntries v) := by
  have hsound : ((entriesOf v).filterMap fun e => keyFault? e.1) = [] ∧
      ((entriesOf v).find? fun e => isBytes e.1) = none ↔ ∀ e ∈ entriesOf v, SoundKey e.1 := by
    simp only [List.filterMap_eq_nil_iff, List.find?_eq_none, soundKey_iff]
    exact ⟨fun h e he => ⟨h.1 e he, h.2 e he⟩, fun h => ⟨fun e he => (h e he).1, fun e he => (h e he).2⟩⟩
  rw [← hsound]
  unfold keywordsOf
  cases hfaults : (entriesOf v).filterMap fun e => keyFault? e.1 with
  | cons fault faults => simp [throw, throwThe, MonadExceptOf.throw]
  | nil =>
    cases hbytes : (entriesOf v).find? fun e => isBytes e.1 with
    | some e => simp [throw, throwThe, MonadExceptOf.throw]
    | none =>
      have hfault : (([] : List Problem).head? <|> Option.map (fun e => Problem.badKey e.1)
          (none : Option (Atom × Value))) = none := rfl
      simp only [hfault, pure, Except.pure, Except.ok.injEq, true_and]
      refine (Eq.congr_left ?_).trans eq_comm
      rw [kept, textEntries, List.filter_filterMap]
      refine congrArg (List.filterMap · (entriesOf v)) (funext fun e => ?_)
      rcases e with ⟨key, value⟩
      cases key with
      | text key => by_cases hany : environment.any (·.1 == variableName key) <;> simp [hany, Option.filter]
      | _ => rfl

/-- The value can be taken for a mapping: it is one, or it is as good as nothing. -/
def Mapping (v : Value) : Prop := v.isVacant ∨ v.entries?.isSome

instance (v : Value) : Decidable (Mapping v) := inferInstanceAs (Decidable (_ ∨ _))

theorem entriesOf_of_not_mapping {v : Value} (hv : ¬ Mapping v) : entriesOf v = [] := by
  have hnone : v.entries? = none := Option.not_isSome_iff_eq_none.1 fun h => hv (.inr h)
  simp [entriesOf, hnone]

theorem keywordsIn_eq {v : Value} (hv : fileValue look path = .ok v) : keywordsIn look environment path =
    if Mapping v then keywordsOf environment (entriesOf v) else .error (.noMapping path) := by
  by_cases hvacant : v.isVacant = true
  · have hm : Mapping v := .inl hvacant
    rw [if_pos hm, entriesOf_of_isVacant hvacant, keywordsIn, hv]
    simp only [bind, Except.bind, if_pos hvacant]
    rfl
  · cases hentries : v.entries? with
    | none =>
      have hm : ¬ Mapping v := by simp [Mapping, hvacant, hentries]
      simp [keywordsIn, hv, bind, Except.bind, hvacant, hentries, hm, throw, throwThe, MonadExceptOf.throw]
    | some entries =>
      have hm : Mapping v := .inr (by simp [hentries])
      simp [keywordsIn, hv, bind, Except.bind, hvacant, hentries, hm, entriesOf]

theorem keywordsIn_eq_ok_iff {v : Value} (hv : fileValue look path = .ok v) :
    keywordsIn look environment path = .ok keywords ↔ Mapping v ∧ (∀ e ∈ entriesOf v, SoundKey e.1) ∧
      keywords = kept environment (textEntries v) := by
  rw [keywordsIn_eq hv]
  split
  · rename_i hm
    simp only [hm, true_and, keywordsOf_eq_ok_iff]
  · rename_i hm
    simp [hm]

/-- The variable of a setting, spelled with capitals only. -/
def Field.variable (f : Field) : String := variableName f.name

theorem Field.isPlain_name (f : Field) : ∀ c ∈ f.name.toList, Text.isPlain c :=
  List.all_eq_true.1 (by cases f <;> decide)

/-- Whichever way a key for a setting is spelled, its variable is that of the setting. -/
theorem variableName_of_lower {key : String} (h : Options.lower key = f.name) :
    variableName key = f.variable := by
  have hlower : Text.lowerCaseText key.toList = f.name.toList := by
    rw [← h, Options.lower, String.toList_ofList]
  have hupper : key.toUpper = f.name.toUpper := by
    refine String.toList_inj.1 ?_
    rw [String.toUpper, String.toUpper, String.toList_map, String.toList_map]
    exact Text.map_toUpper_of_lowerCaseText f.isPlain_name hlower
  rw [Field.variable, variableName, variableName, hupper]

/-- **A file gives way** for a setting if its variable is in the environment under this very name, and else
not at all. -/
theorem keyword?_kept {entries : List (String × Value)} : keyword? f (kept environment entries) =
    if f.variable ∈ environment.map (·.1) then none else keyword? f entries := by
  have hmem : ∀ name, environment.any (·.1 == name) ↔ name ∈ environment.map (·.1) := by
    intro name
    simp [List.any_eq_true]
  unfold keyword? kept
  rw [List.find?_filter]
  split
  · rename_i hin
    rw [Option.map_eq_none_iff, List.find?_eq_none]
    intro e _ h
    simp only [Bool.not_eq_true', decide_eq_true_eq, beq_iff_eq] at h
    rw [variableName_of_lower h.2, (hmem f.variable).2 hin] at h
    cases h.1
  · rename_i hout
    refine congrArg _ (congrArg (List.find? · entries) (funext fun e => ?_))
    by_cases hname : Options.lower e.1 = f.name
    · have hnot : environment.any (·.1 == f.variable) = false := by
        rw [← Bool.not_eq_true, hmem]
        exact hout
      simp [hname, variableName_of_lower hname, hnot]
    · simp [hname]

/-! ### Without options -/

/-- The keywords that are options. -/
def Options.keys : List String := ["_env_prefix", "_case_sensitive", "_env_ignore_empty",
  "_env_parse_none_str", "_env_file", "_env_file_encoding", "_secrets_dir", "__pydantic_self__"]

/-- No keyword is an option, neither one of these nor one that the library has for itself. -/
def Plain (lib : Library) (keywords : List (String × Value)) : Prop :=
  ∀ e ∈ keywords, e.1 ∉ Options.keys ∧ lib.isOwn e.1 = false

instance (lib : Library) (keywords : List (String × Value)) : Decidable (Plain lib keywords) :=
  inferInstanceAs (Decidable (∀ e ∈ keywords, _))

theorem plain_nil : Plain lib [] := fun _ he => nomatch he

/-- A file that gives way for some of its keys is as plain as before. -/
theorem Plain.kept {entries : List (String × Value)} (h : Plain lib entries) :
    Plain lib (kept environment entries) :=
  fun e he => h e (List.mem_filter.1 he).1

theorem Plain.ofKeywords_eq_default (h : Plain lib keywords) :
    Options.ofKeywords keywords = .ok .default := by
  have hnone : ∀ key ∈ Options.keys, keywords.lookup key = none := by
    intro key hkey
    rw [List.lookup_eq_none_iff]
    intro e he
    rw [bne_iff_ne]
    rintro rfl
    exact (h e he).1 hkey
  unfold Options.ofKeywords
  simp (disch := decide) only [hnone]
  rfl

/-- The path of the file of variables in the working directory. -/
def dotenvPath : Path := .ofText Options.dotenvName

/-- The file of variables is found out about, and is a text if it is there. -/
def DotenvReadable (look : Path → Found) : Prop :=
  look dotenvPath ≠ .tooLong ∧ ∀ bytes, look dotenvPath = .file bytes → ∃ text, bytes = Text.encodeUtf8 text

theorem path_dotenvName (lib : Library) : Options.path lib (.text Options.dotenvName) = .ok dotenvPath := by
  have hparts : dotenvPath.root = "" ∧ dotenvPath.parts.map String.toList = [['.', 'e', 'n', 'v']] := by
    decide +kernel
  change Options.expandHome lib dotenvPath = _
  unfold Options.expandHome
  rw [hparts.1, hparts.2]
  rfl

theorem encodingOf_default : encodingOf Options.default.encoding = .ok .utf8 :=
  toOption_eq_some_iff.1 (by decide +kernel)

theorem dotenvOf_default : dotenvOf lib look environment .default =
    (dotenvText? look Options.default.encoding dotenvPath).map fun text? =>
      Dotenv.expand environment (Dotenv.bindings (text?.getD [])) := by
  have hfiles : Options.default.files = [.text Options.dotenvName] := rfl
  simp only [dotenvOf, hfiles, List.mapM_cons, List.mapM_nil, path_dotenvName, Except.mapError]
  cases ht : dotenvText? look Options.default.encoding dotenvPath <;>
    simp [ht, bind, Except.bind, pure, Except.pure, Except.map]

/-- The variables of the file are found exactly if it is readable. -/
theorem dotenvOf_default_iff : (∃ dotenv, dotenvOf lib look environment .default = .ok dotenv) ↔
    DotenvReadable look := by
  have htext : (∃ dotenv, dotenvOf lib look environment .default = .ok dotenv) ↔
      ∃ text?, dotenvText? look Options.default.encoding dotenvPath = .ok text? := by
    rw [dotenvOf_default]
    cases dotenvText? look Options.default.encoding dotenvPath <;> simp [Except.map]
  rw [htext]
  unfold dotenvText? DotenvReadable
  cases look dotenvPath with
  | file bytes =>
    simp only [encodingOf_default, Text.Encoding.decode, bind_eq_ok_iff, mapError_eq_ok_iff, Except.ok.injEq,
      exists_eq_left', Text.decodeUtf8_eq_ok_iff, pure, Except.pure]
    simp only [ne_eq, reduceCtorEq, not_false_eq_true, Found.file.injEq, forall_eq', true_and]
    constructor
    · rintro ⟨-, text, hbytes, -⟩
      exact ⟨.ofList text, hbytes⟩
    · rintro ⟨text, hbytes⟩
      exact ⟨_, text.toList, by rwa [String.ofList_toList], rfl⟩
  | _ => simp [pure, Except.pure, throw, throwThe, MonadExceptOf.throw]

/-- **The search without options** finds no more than the variables of the file beside the environment. -/
theorem Plain.ofKeywords_eq (h : Plain lib keywords) : ofKeywords lib look environment keywords =
    dotenvOf lib look environment .default >>= fun dotenv =>
      ofSources ⟨.default, keywords, environment, dotenv, []⟩ := by
  have hown : (keywords.any fun e => lib.isOwn e.1) = false :=
    List.any_eq_false.2 fun e he => by simp [(h e he).2]
  unfold ofKeywords
  simp only [hown, h.ofKeywords_eq_default, Except.mapError]
  rfl

/-- **Keywords give settings** if the file of variables is readable and every setting takes its own value. -/
theorem Plain.ofKeywords_eq_ok_iff (h : Plain lib keywords) :
    ofKeywords lib look environment keywords = .ok s ↔
      ∃ dotenv, dotenvOf lib look environment .default = .ok dotenv ∧
        ∀ f, s.Takes f (Sources.value? ⟨.default, keywords, environment, dotenv, []⟩ f) := by
  simp only [h.ofKeywords_eq, bind_eq_ok_iff, ofSources, mapError_eq_ok_iff, ofValues_eq_ok_iff]

end DesignGraph.Settings
