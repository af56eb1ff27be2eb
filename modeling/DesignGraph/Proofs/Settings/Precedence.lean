import DesignGraph.Proofs.Settings.Search

/-! # Which source a setting comes from

A setting can be given by a variable of the environment, by a key of the settings file, and by the file of
variables. The environment is to win over the file. It does so for a variable that is spelled with capitals
only, since the file then gives way; a variable in any other spelling is honoured as long as the file has no
key for the setting, and is passed over if it has one (`takes_iff`). So the documented order of the sources
holds for a setting exactly if its variable is spelled with capitals, or what is passed over would have meant
the same (`environment_first_iff`).

Files with keys that are options of the search are left aside (`Plain`). Such keys move the search elsewhere, or
hand it over to the library. -/

namespace DesignGraph.Settings

open Storage (Found Path)
open Yaml (Value)

variable {lib : Library} {look : Path → Found} {environment : List (String × String)} {path : Path} {v : Value}
  {s : Settings} {f : Field}

/-- What the environment says of a setting, its variable being spelled in any case. -/
def environmentValue? (environment : List (String × String)) (f : Field) : Option Value :=
  Options.default.value? f (environment.map fun e => (e.1, some e.2))

/-- What the variables of a file say of a setting. -/
def dotenvValue? (dotenv : List Dotenv.Binding) (f : Field) : Option Value := Options.default.value? f dotenv

/-- The documented order of the sources. -/
def documented? (environment : List (String × String)) (entries : List (String × Value))
    (dotenv : List Dotenv.Binding) (f : Field) : Option Value :=
  environmentValue? environment f <|> keyword? f entries <|> dotenvValue? dotenv f

theorem value?_default {keywords : List (String × Value)} {dotenv : List Dotenv.Binding} :
    Sources.value? ⟨.default, keywords, environment, dotenv, []⟩ f =
      (keyword? f keywords <|> environmentValue? environment f <|> dotenvValue? dotenv f) := by
  have hsecrets : ([] : List (Field × String)).lookup f = none := rfl
  simp [Sources.value?, hsecrets, environmentValue?, dotenvValue?]

/-- **What is honoured without a file**: settings that nothing is said about otherwise take what the
environment says, or else the file of variables. -/
theorem ofKeywords_nil_iff {dotenv : List Dotenv.Binding}
    (hd : dotenvOf lib look environment .default = .ok dotenv) :
    ofKeywords lib look environment [] = .ok s ↔
      ∀ f, s.Takes f (environmentValue? environment f <|> dotenvValue? dotenv f) := by
  have hvalue : ∀ f dotenv, Sources.value? ⟨.default, [], environment, dotenv, []⟩ f =
      (environmentValue? environment f <|> dotenvValue? dotenv f) := by
    intro f dotenv
    simp [value?_default, keyword?]
  simp only [plain_nil.ofKeywords_eq_ok_iff, hvalue]
  constructor
  · rintro ⟨dotenv', hd', htakes⟩
    obtain rfl := Except.ok.inj (hd.symm.trans hd')
    exact htakes
  · exact fun htakes => ⟨dotenv, hd, htakes⟩

theorem Field.toList_variable (f : Field) :
    f.variable.toList = (Options.default.beginning ++ f.name).toList.map Char.toUpper := by
  rw [Field.variable, variableName, String.toList_append, String.toList_append, List.map_append, String.toUpper,
    String.toList_map]
  rfl

/-- The name in capitals is one of those that a variable for the setting may have. -/
theorem isNameOf_variable (f : Field) : Options.default.isNameOf f f.variable := by
  have hsigma : 'Σ' ∉ (Options.default.beginning ++ f.name).toList := by
    rw [String.toList_append, List.mem_append, not_or]
    exact ⟨by decide, fun h => absurd (f.isPlain_name _ h) (by decide)⟩
  have hlower : Options.lower f.variable = Options.lower (Options.default.beginning ++ f.name) := by
    rw [Options.lower, f.toList_variable, Text.lowerCaseText_map_toUpper hsigma]
    rfl
  rw [Options.isNameOf, hlower]
  exact beq_self_eq_true _

/-- So is every name that is the same in capitals. -/
theorem isNameOf_of_toUpper {name : String} (hsigma : 'Σ' ∉ name.toList)
    (h : name.toList.map Char.toUpper = f.variable.toList) : Options.default.isNameOf f name := by
  have hlower : Options.lower name = Options.lower f.variable := by
    rw [Options.lower, Options.lower, ← h, Text.lowerCaseText_map_toUpper hsigma]
  rw [Options.isNameOf, hlower]
  exact isNameOf_variable f

/-- A variable spelled with capitals only is honoured. -/
theorem environmentValue?_isSome (h : f.variable ∈ environment.map (·.1)) :
    (environmentValue? environment f).isSome := by
  obtain ⟨e, he, hname⟩ := List.mem_map.1 h
  have hfound : ((environment.map fun e => (e.1, some e.2)).reverse.find? fun e : String × Option String =>
      Options.default.isNameOf f e.1 && !(Options.default.ignoresEmpty && e.2 == some "")).isSome := by
    rw [List.find?_isSome]
    refine ⟨(e.1, some e.2), List.mem_reverse.2 (List.mem_map_of_mem he), ?_⟩
    rw [hname, isNameOf_variable]
    rfl
  obtain ⟨found, hfind⟩ := Option.isSome_iff_exists.1 hfound
  obtain ⟨e', -, rfl⟩ := List.mem_map.1 (List.mem_reverse.1 (List.mem_of_find?_eq_some hfind))
  simp only [environmentValue?, Options.value?, hfind]
  rfl

/-- One variable of the name is honoured, whatever its case. -/
theorem environmentValue?_one {name text : String} (h : Options.default.isNameOf f name) :
    environmentValue? [(name, text)] f = some (.text text) := by
  have hnull : Options.default.nullText? = none := rfl
  have hempty : Options.default.ignoresEmpty = false := rfl
  simp [environmentValue?, Options.value?, h, hnull, hempty]

/-- **What happens**: where the variable is spelled with capitals the file has given way, and else the file wins
over the environment. -/
theorem takes_iff (hno : Plain lib (textEntries v)) (hv : fileValue look path = .ok v)
    (hs : ofFile lib look environment path = .ok s) :
    ∃ dotenv, dotenvOf lib look environment .default = .ok dotenv ∧ ∀ f, s.Takes f
      ((if f.variable ∈ environment.map (·.1) then none else keyword? f (textEntries v)) <|>
        environmentValue? environment f <|> dotenvValue? dotenv f) := by
  obtain ⟨keywords, hkeywords, hs⟩ := bind_eq_ok_iff.1 hs
  obtain ⟨-, -, rfl⟩ := (keywordsIn_eq_ok_iff hv).1 hkeywords
  obtain ⟨dotenv, hd, htakes⟩ := hno.kept.ofKeywords_eq_ok_iff.1 hs
  refine ⟨dotenv, hd, fun f => ?_⟩
  have htakes' := htakes f
  rwa [value?_default, keyword?_kept] at htakes'

/-- **Environment before file.** Let a settings file without options be read, whatever the environment, the file
of variables and the keys of the file are, and let it give settings. Without the file each setting takes what
the environment says, or else the file of variables. With the file the order of the sources is the documented
one for a setting (the environment as it is honoured without the file, the file, the file of variables, the
default) exactly if, where both the environment and the file speak of the setting, its variable is in the
environment with capitals only or its value means what the setting holds anyway. -/
theorem environment_first_iff (hno : Plain lib (textEntries v)) (hv : fileValue look path = .ok v)
    (hs : ofFile lib look environment path = .ok s) :
    ∃ dotenv, dotenvOf lib look environment .default = .ok dotenv ∧
      (∀ alone, ofKeywords lib look environment [] = .ok alone ↔
        ∀ f, alone.Takes f (environmentValue? environment f <|> dotenvValue? dotenv f)) ∧
      ∀ f, s.Takes f (documented? environment (textEntries v) dotenv f) ↔
        ∀ given honoured, keyword? f (textEntries v) = some given →
          environmentValue? environment f = some honoured →
            f.variable ∈ environment.map (·.1) ∨ s.Takes f (some honoured) := by
  obtain ⟨dotenv, hd, htakes⟩ := takes_iff hno hv hs
  refine ⟨dotenv, hd, fun alone => ofKeywords_nil_iff hd, fun f => ?_⟩
  have hf := htakes f
  unfold documented?
  by_cases hcapitals : f.variable ∈ environment.map (·.1)
  · obtain ⟨honoured, hh⟩ := Option.isSome_iff_exists.1 (environmentValue?_isSome hcapitals)
    rw [if_pos hcapitals, hh] at hf
    simp only [hh, hcapitals, true_or, implies_true, iff_true]
    exact hf
  · rw [if_neg hcapitals] at hf
    cases hgiven : keyword? f (textEntries v) with
    | none =>
      rw [hgiven] at hf
      simpa using hf
    | some given =>
      cases hh : environmentValue? environment f with
      | none =>
        rw [hgiven] at hf
        simpa using hf
      | some honoured => simp [hcapitals]

/-! ### Two files -/

/-- What makes one file of a text. -/
def onlyFile (name text : String) (path : Path) : Found :=
  if path = .ofText name then .file (Text.encodeUtf8 text) else .nothing

/-- A file whose keys are spelled in several ways. -/
def mixedFile : Path → Found := onlyFile "c.yaml" "Type_Suffix: _t\nRECURSIVE: yes\n"

/-- One variable with capitals only, and one that means the same as the file. -/
def mixedEnvironment : List (String × String) := [("ONTOGEN_TYPE_SUFFIX", "_e"), ("Ontogen_Recursive", "1")]

/-- What comes of both. -/
def mixedSettings : Settings := { default with recursive := true, typeSuffix := "_e" }

theorem environment_first_iff_mixed :
    let path := Path.ofText "c.yaml"
    ∃ v, fileValue mixedFile path = .ok v ∧ Plain .bare (textEntries v) ∧
      ofFile .bare mixedFile mixedEnvironment path = .ok mixedSettings ∧
      ∃ dotenv, dotenvOf .bare mixedFile mixedEnvironment .default = .ok dotenv ∧
        (∀ alone, ofKeywords .bare mixedFile mixedEnvironment [] = .ok alone ↔
          ∀ f, alone.Takes f (environmentValue? mixedEnvironment f <|> dotenvValue? dotenv f)) ∧
        ∀ f, mixedSettings.Takes f (documented? mixedEnvironment (textEntries v) dotenv f) ↔
          ∀ given honoured, keyword? f (textEntries v) = some given →
            environmentValue? mixedEnvironment f = some honoured →
              f.variable ∈ mixedEnvironment.map (·.1) ∨ mixedSettings.Takes f (some honoured) := by
  intro path
  -- The file is read once: the settings are told from its value.
  have hread : ((fileValue mixedFile path).toOption.any fun v =>
      decide (Mapping v) && decide (Plain .bare (textEntries v)) &&
        decide ((keywordsOf mixedEnvironment (entriesOf v) >>=
          ofKeywords .bare mixedFile mixedEnvironment).toOption = some mixedSettings)) = true := by decide +kernel
  obtain ⟨v, hv, hall⟩ := (Option.any_eq_true _ _).1 hread
  simp only [Bool.and_eq_true, decide_eq_true_eq] at hall
  obtain ⟨⟨hmapping, hno⟩, hsettings⟩ := hall
  have hv := toOption_eq_some_iff.1 hv
  have hs : ofFile .bare mixedFile mixedEnvironment path = .ok mixedSettings := by
    rw [ofFile, keywordsIn_eq hv, if_pos hmapping]
    exact toOption_eq_some_iff.1 hsettings
  exact ⟨v, hv, hno, hs, environment_first_iff hno hv hs⟩

/-- A file with a key for the datatypes. -/
def datatypeFile : Path → Found := onlyFile "c.yaml" "datatype_uid: VHDL::Types\n"

/-- **Small letters lose**: the documented order does not hold for every spelling of a variable, even without
options in the file. -/
theorem not_environment_first : ¬ ∀ (lib : Library) (look : Path → Found)
    (environment : List (String × String)) (path : Path) (v : Value) (s : Settings)
    (dotenv : List Dotenv.Binding), Plain lib (textEntries v) → fileValue look path = .ok v →
      ofFile lib look environment path = .ok s → dotenvOf lib look environment .default = .ok dotenv →
        ∀ f, s.Takes f (documented? environment (textEntries v) dotenv f) := by
  intro h
  let path := Path.ofText "c.yaml"
  let environment := [("ontogen_datatype_uid", "C::Types")]
  have hread : (fileValue datatypeFile path).toOption.any (fun v => decide (Plain .bare (textEntries v))) ∧
      (ofFile .bare datatypeFile environment path).toOption =
        some { default with datatypeUid := some "VHDL::Types" } ∧
      (dotenvOf .bare datatypeFile environment .default).toOption = some [] := by decide +kernel
  obtain ⟨hfile, hs, hd⟩ := hread
  obtain ⟨v, hv, hno⟩ := (Option.any_eq_true _ _).1 hfile
  have htakes := h _ _ _ _ v _ _ (of_decide_eq_true hno) (toOption_eq_some_iff.1 hv)
    (toOption_eq_some_iff.1 hs) (toOption_eq_some_iff.1 hd) .datatypeUid
  have hhonoured : environmentValue? environment .datatypeUid = some (.text "C::Types") :=
    environmentValue?_one
      (isNameOf_of_toUpper (by decide) (by rw [Field.toList_variable]; decide))
  rw [documented?, hhonoured] at htakes
  have hwrong : some (some "C::Types") = some (some "VHDL::Types") := htakes
  exact absurd hwrong (by decide)

end DesignGraph.Settings
