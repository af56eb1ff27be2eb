import DesignGraph.Yaml.Outline
import Mathlib.Data.Nat.Notation
import Mathlib.Logic.Basic
import Mathlib.Tactic.ByContra

/-! # What a written document consists of

Whatever a document says, its text consists of characters that need no escape (`written_document`): a text
with others is written between double quotes, and escapes consist of letters and digits. A carriage return
is one of the others, so no document has one, and a reader for whom it ends a line finds the lines as they
were written.

The induction is on the outline, along the functions that write it; each way of writing a text has its
lemma (`written_foldRuns` for the plain and the quoted one, `written_writeEscaped` for the escaped one). -/

namespace DesignGraph.Yaml

/-- Characters that need no escape. -/
def Written (unicode : Bool) (text : List Char) : Prop := ∀ c ∈ text, isSpecial unicode c = false

variable {unicode : Bool} {l m : List Char} {c : Char} {n : ℕ}

@[simp] theorem written_nil : Written unicode [] := by simp [Written]

@[simp] theorem written_cons : Written unicode (c :: l) ↔ isSpecial unicode c = false ∧ Written unicode l :=
  List.forall_mem_cons

@[simp] theorem written_append : Written unicode (l ++ m) ↔ Written unicode l ∧ Written unicode m :=
  List.forall_mem_append

@[simp] theorem written_reverse : Written unicode l.reverse ↔ Written unicode l := by simp [Written]

/-- What stands for itself in ASCII. -/
theorem isSpecial_of_ascii (h : 0x20 ≤ c.toNat) (h' : c.toNat ≤ 0x7e) : isSpecial unicode c = false := by
  simp [isSpecial, h, h']

@[simp] theorem isSpecial_space : isSpecial unicode ' ' = false := isSpecial_of_ascii (by decide) (by decide)

@[simp] theorem isSpecial_newline : isSpecial unicode '\n' = false := by simp [isSpecial]

@[simp] theorem written_spaces : Written unicode (List.replicate n ' ') := fun c hc => by
  rw [List.eq_of_mem_replicate hc]
  exact isSpecial_space

theorem Written.not_mem_return (h : Written unicode l) : '\r' ∉ l := fun hr => by
  have hspecial : isSpecial unicode '\r' = true := by cases unicode <;> decide
  rw [h _ hr] at hspecial
  cases hspecial

/-! ### Digits -/

theorem mem_toDigits {b : ℕ} (hb : 1 < b) (hc : c ∈ Nat.toDigits b n) : ∃ d < b, c = d.digitChar := by
  induction n using Nat.strongRecOn with
  | ind n ih =>
    rw [Nat.toDigits_eq_if hb] at hc
    split at hc
    · rename_i hn
      exact ⟨n, hn, List.mem_singleton.1 hc⟩
    · rename_i hn
      rcases List.mem_append.1 hc with hc | hc
      · exact ih (n / b) (Nat.div_lt_self (by omega) hb) hc
      · exact ⟨n % b, Nat.mod_lt _ (by omega), List.mem_singleton.1 hc⟩

theorem written_toDigits : Written unicode (Nat.toDigits 10 n) := fun c hc => by
  obtain ⟨d, hd, rfl⟩ := mem_toDigits (by decide) hc
  have hascii : ∀ d < 10, 0x20 ≤ d.digitChar.toNat ∧ d.digitChar.toNat ≤ 0x7e := by decide
  exact isSpecial_of_ascii (hascii d hd).1 (hascii d hd).2

theorem written_repr : Written unicode n.repr.toList := by
  rw [Nat.repr_eq_ofList_toDigits, String.toList_ofList]
  exact written_toDigits

theorem written_int (k : Int) : Written unicode k.repr.toList := by
  cases k with
  | ofNat k => exact written_repr
  | negSucc k =>
    change Written unicode ("-" ++ (k + 1).repr).toList
    rw [String.toList_append]
    exact written_append.2 ⟨by simp [isSpecial_of_ascii], written_repr⟩

theorem written_hexUpper (width : ℕ) : Written unicode (Text.hexUpper width n) := fun c hc => by
  obtain ⟨d, hd, rfl⟩ := List.mem_map.1 hc
  have hdigit : ∃ k < 16, d = k.digitChar := by
    rcases List.mem_append.1 hd with hd | hd
    · exact ⟨0, by decide, List.eq_of_mem_replicate hd⟩
    · exact mem_toDigits (by decide) hd
  obtain ⟨k, hk, rfl⟩ := hdigit
  have hascii : ∀ k < 16, 0x20 ≤ k.digitChar.toUpper.toNat ∧ k.digitChar.toUpper.toNat ≤ 0x7e := by decide
  exact isSpecial_of_ascii (hascii k hk).1 (hascii k hk).2

/-! ### Folding -/

theorem mem_of_mem_runs {k : RunKind} {run : List Char} (hrun : (k, run) ∈ runs l) : ∀ c ∈ run, c ∈ l := by
  induction l generalizing k run with
  | nil => simp [runs] at hrun
  | cons a l ih =>
    rw [runs] at hrun
    split at hrun
    · simp only [List.mem_singleton, Prod.mk.injEq] at hrun
      simp [hrun.2]
    · rename_i k' run' rest hruns
      have hrest : ∀ {k run}, (k, run) ∈ (k', run') :: rest → ∀ c ∈ run, c ∈ l := fun h =>
        ih (hruns ▸ h)
      split at hrun
      · rcases List.mem_cons.1 hrun with hrun | hrun
        · obtain ⟨rfl, rfl⟩ := Prod.mk.inj hrun
          intro c hc
          rcases List.mem_cons.1 hc with rfl | hc
          · exact List.mem_cons_self
          · exact List.mem_cons_of_mem _ (hrest List.mem_cons_self c hc)
        · exact fun c hc => List.mem_cons_of_mem _ (hrest (List.mem_cons_of_mem _ hrun) c hc)
      · rcases List.mem_cons.1 hrun with hrun | hrun
        · obtain ⟨rfl, rfl⟩ := Prod.mk.inj hrun
          simp
        · exact fun c hc => List.mem_cons_of_mem _ (hrest hrun c hc)

theorem written_newLine : Written unicode (newLine n) := by simp [newLine]

/-- Folding adds ends of lines and blanks only. -/
theorem written_foldRuns (layout : Layout) {write : List Char → List Char}
    (hwrite : ∀ word, Written unicode word → Written unicode (write word)) (rs : List (RunKind × List Char)) :
    ∀ (column : ℕ) (inner : Bool), (∀ r ∈ rs, Written unicode r.2) →
      Written unicode (foldRuns layout write column inner rs) := by
  induction rs with
  | nil => exact fun _ _ _ => written_nil
  | cons r rs ih =>
    intro column inner hrs
    obtain ⟨kind, run⟩ := r
    obtain ⟨hrun, hrest⟩ := List.forall_mem_cons.1 hrs
    cases kind with
    | word => exact written_append.2 ⟨hwrite run hrun, ih _ true hrest⟩
    | ends =>
      refine written_append.2 ⟨written_append.2 ⟨?_, written_spaces⟩, ih _ true hrest⟩
      split
      · exact written_cons.2 ⟨isSpecial_newline, hrun⟩
      · exact hrun
    | spaces =>
      rw [foldRuns]
      split
      · exact written_append.2 ⟨written_newLine, ih _ true hrest⟩
      · exact written_append.2 ⟨hrun, ih _ true hrest⟩

theorem written_runs (h : Written unicode l) : ∀ r ∈ runs l, Written unicode r.2 :=
  fun _ hr c hc => h c (mem_of_mem_runs hr c hc)

theorem written_writePlain (layout : Layout) (h : Written unicode l) : Written unicode (writePlain layout l) :=
  written_foldRuns layout (fun _ hw => hw) _ _ _ (written_runs h)

theorem written_doubleQuotes (h : Written unicode l) : Written unicode (doubleQuotes l) := by
  intro c hc
  obtain ⟨a, ha, hca⟩ := List.mem_flatMap.1 hc
  have heq : c = a := by
    split at hca
    · simpa using hca
    · simpa using hca
  exact heq ▸ h a ha

theorem written_writeSingle (layout : Layout) (h : Written unicode l) :
    Written unicode (writeSingle layout l) := by
  have hquote : isSpecial unicode '\x27' = false := isSpecial_of_ascii (by decide) (by decide)
  have hfold := written_foldRuns layout (fun _ => written_doubleQuotes) (runs l) (layout.column + 1) false
    (written_runs h)
  simp [writeSingle, hquote, hfold]

/-! ### Escapes -/

theorem isSpecial_of_isUnescaped (h : isUnescaped unicode c) : isSpecial unicode c = false := by
  unfold isUnescaped at h
  simp only at h
  split at h
  · cases h
  · rename_i hmark
    simp only [Bool.or_eq_true, Bool.and_eq_true, decide_eq_true_eq, beq_iff_eq, not_or] at h hmark
    rcases h with ⟨h, h'⟩ | ⟨⟨rfl, h⟩, h'⟩
    · exact isSpecial_of_ascii h h'
    · simp [isSpecial, hmark.2, h, h']

theorem written_escape (c : Char) : Written unicode (escape c) := by
  have hascii : ∀ a ∈ ['\\', 'x', 'u', 'U'] ++ letterEscapes.map Prod.snd,
      0x20 ≤ a.toNat ∧ a.toNat ≤ 0x7e := by simp [letterEscapes]
  have hletter : ∀ a ∈ ['\\', 'x', 'u', 'U'] ++ letterEscapes.map Prod.snd, isSpecial unicode a = false :=
    fun a ha => isSpecial_of_ascii (hascii a ha).1 (hascii a ha).2
  have hslash := hletter '\\' (by simp)
  unfold escape
  split
  · rename_i letter hl
    obtain ⟨front, rest, hsplit, -⟩ := List.lookup_eq_some_iff.1 hl
    have hmem : letter ∈ letterEscapes.map Prod.snd := List.mem_map.2 ⟨(c, letter), by simp [hsplit], rfl⟩
    have hspecial := hletter letter (List.mem_append_right _ hmem)
    simp [hslash, hspecial]
  · have hdigits : ∀ w n, Written unicode (escape.hexDigits w n) := fun w _ => written_hexUpper w
    simp only
    split
    · simp [hslash, hletter 'x' (by simp), hdigits]
    split
    · simp [hslash, hletter 'u' (by simp), hdigits]
    · simp [hslash, hletter 'U' (by simp), hdigits]

/-- The rest of a text between double quotes, whatever is pending. -/
theorem written_writeEscaped (layout : Layout) (text : List Char) :
    ∀ (column : ℕ) (pending : List Char) (first : Bool), Written unicode pending →
      Written unicode (writeEscaped layout unicode column pending first text) := by
  have hslash : isSpecial unicode '\\' = false := isSpecial_of_ascii (by decide) (by decide)
  induction text with
  | nil => exact fun _ _ _ h => written_reverse.2 h
  | cons c text ih =>
    intro column pending first hpending
    have hguard : ∀ a : Char, Written unicode
        (if (a == ' ') = true then (['\\'], layout.indent + 1) else ([], layout.indent)).1 := by
      intro a
      split <;> simp [hslash]
    rw [writeEscaped]
    split
    · rename_i hc
      have hself := isSpecial_of_isUnescaped hc
      simp only
      split
      · refine written_append.2 ⟨written_append.2 ⟨written_append.2 ⟨written_reverse.2 hpending, ?_⟩, hguard c⟩,
          ih _ _ _ (by simp [hself])⟩
        simp [hslash, written_newLine]
      · exact ih _ _ _ (written_cons.2 ⟨hself, hpending⟩)
    · have hdone : Written unicode (pending.reverse ++ escape c) :=
        written_append.2 ⟨written_reverse.2 hpending, written_escape c⟩
      simp only
      split
      · refine written_append.2 ⟨written_append.2 ⟨written_append.2 ⟨hdone, ?_⟩, hguard _⟩,
          ih _ _ _ written_nil⟩
        simp [hslash, written_newLine]
      · exact written_append.2 ⟨hdone, ih _ _ _ written_nil⟩

theorem written_writeDouble (layout : Layout) (text : List Char) :
    Written unicode (writeDouble layout unicode text) := by
  have hquote : isSpecial unicode '"' = false := isSpecial_of_ascii (by decide) (by decide)
  simp [writeDouble, hquote, written_writeEscaped]

/-! ### Documents -/

/-- A text with special characters is neither written plain nor between single quotes. -/
theorem written_of_form {isKey : Bool} {text : String} (h : Form.of unicode isKey text ≠ .double) :
    Written unicode text.toList := by
  unfold Form.of at h
  by_contra hspecial
  have hany : text.toList.any (isSpecial unicode) = true := by
    simpa [Written] using hspecial
  simp [hany] at h

theorem written_writeText (layout : Layout) (isKey : Bool) (text : String) :
    Written unicode (writeText layout unicode isKey text) := by
  unfold writeText
  split
  · rename_i h
    have hform : Form.of unicode isKey text ≠ .double := by rw [h]; decide
    exact written_writePlain layout (written_of_form hform)
  · rename_i h
    have hform : Form.of unicode isKey text ≠ .double := by rw [h]; decide
    exact written_writeSingle layout (written_of_form hform)
  · exact written_writeDouble layout _

namespace Outline

mutual

theorem written_write (column indent : ℕ) : ∀ o : Outline, Written unicode (write unicode column indent o)
  | null => by simp [write, isSpecial_of_ascii]
  | bool b => by cases b <;> simp [write, isSpecial_of_ascii]
  | int k => by simp [write, written_int]
  | text s => by simp [write, written_writeText]
  | list [] => by simp [write, isSpecial_of_ascii]
  | list (x :: xs) => by simp [write, written_writeItems indent false (x :: xs)]
  | map [] => by simp [write, isSpecial_of_ascii]
  | map (e :: es) => by simp [write, written_writeEntries (indent + 2) false (e :: es)]
termination_by o => 2 * sizeOf o

theorem written_writeItem (indent : ℕ) : ∀ o : Outline, Written unicode (writeItem unicode indent o)
  | list (x :: xs) => by simp [writeItem, written_writeItems (indent + 2) true (x :: xs)]
  | map (e :: es) => by simp [writeItem, written_writeEntries (indent + 2) true (e :: es)]
  | list [] => by simp [writeItem, written_write (indent + 1) indent (list [])]
  | map [] => by simp [writeItem, written_write (indent + 1) indent (map [])]
  | null => by simp [writeItem, written_write (indent + 1) indent null]
  | bool b => by simp [writeItem, written_write (indent + 1) indent (bool b)]
  | int k => by simp [writeItem, written_write (indent + 1) indent (int k)]
  | text s => by simp [writeItem, written_write (indent + 1) indent (text s)]
termination_by o => 2 * sizeOf o + 1

theorem written_writeItems (indent : ℕ) (started : Bool) :
    ∀ l : List Outline, Written unicode (writeItems unicode indent started l)
  | [] => by simp [writeItems]
  | x :: xs => by
    have hitem := written_writeItem indent x
    have hrest := written_writeItems indent false xs
    cases started <;> simp [writeItems, hitem, hrest, isSpecial_of_ascii]
termination_by l => 2 * sizeOf l

theorem written_writeEntries (indent : ℕ) (started : Bool) :
    ∀ l : List (String × Outline), Written unicode (writeEntries unicode indent started l)
  | [] => by simp [writeEntries]
  | (k, x) :: es => by
    have hkey : Written unicode (writeText ⟨indent, indent + 2, false⟩ unicode true k) :=
      written_writeText _ true k
    have hvalue := fun column => written_write column indent x
    have hrest := written_writeEntries indent false es
    cases started <;> simp [writeEntries, hkey, hvalue, hrest, isSpecial_of_ascii]
termination_by l => 2 * sizeOf l

end

/-- **A document consists of characters that need no escape**. -/
theorem written_document (entries : List (String × Outline)) :
    Written unicode (document unicode entries).toList := by
  rw [document, String.toList_ofList]
  split
  · simp [isSpecial_of_ascii]
  · exact written_writeEntries 0 false entries

end Outline

end DesignGraph.Yaml
