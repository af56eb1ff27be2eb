import DesignGraph.Proofs.Entity.Blocks
import DesignGraph.Proofs.Entity.SelfContained
import DesignGraph.Proofs.Text.Lines

/-! # Texts that are not broken up

Labels and uids may be any texts: what is made of them are names, and a name holds no line break. Only the
suffix of types and the labels of datatypes are written as they are. If these hold no break, no text in a
design does (`Store.unbroken_design`), and the text of the design falls into the lines that it was put together
from (`Design.Unbroken.lines_text`). -/

namespace DesignGraph

open Identifier Text

namespace Entity

variable {name : String} {d : Design} {n : Netlist} {b : LineBreaks}

/-! ### Lines without breaks -/

/-- The name and the type of a declaration hold no break. -/
def Typed.Unbroken (b : LineBreaks) (t : Typed) : Prop := b.Free t.name ∧ b.Free t.type

/-- Both ends of a wire hold no break. -/
def Wire.Unbroken (b : LineBreaks) (w : Wire) : Prop := b.Free w.target ∧ b.Free w.source

/-- No text in the instantiation holds a break. -/
structure Instantiation.Unbroken (b : LineBreaks) (i : Instantiation) : Prop where
  name : b.Free i.name
  entity : b.Free i.entity
  wires : ∀ w ∈ i.inputs ++ i.outputs, w.Unbroken b

/-- No text in the netlist holds a break. -/
structure Netlist.Unbroken (b : LineBreaks) (n : Netlist) : Prop where
  signals : ∀ t ∈ n.signals, t.Unbroken b
  assignments : ∀ w ∈ n.assignments, w.Unbroken b
  instantiations : ∀ i ∈ n.instantiations, i.Unbroken b

/-- No text in the design holds a break. -/
structure Design.Unbroken (b : LineBreaks) (d : Design) : Prop where
  name : b.Free d.name
  subtypes : ∀ t ∈ d.subtypes, t.Unbroken b
  ports : ∀ t ∈ d.ports, t.Unbroken b
  netlist : ∀ n ∈ d.netlist, n.Unbroken b

theorem isPlainChar_of_isNameChar {c : Char} (h : isNameChar c) : isPlainChar c := by
  have hplain : 0x20 ≤ c.toNat ∧ c.toNat ≤ 0x7e → isPlainChar c := by
    simp only [isPlainChar, Char.le_def, UInt32.le_iff_toNat_le, Bool.or_eq_true, Bool.and_eq_true,
      decide_eq_true_eq]
    exact .inr
  refine hplain ?_
  rcases Bool.or_eq_true_iff.1 h with halphanum | hgap
  · rcases Bool.or_eq_true_iff.1 halphanum with hletter | hdigit
    · have hcode := toNat_of_isAlpha hletter
      omega
    · have hcode := toNat_of_isDigit hdigit
      omega
  · obtain rfl := beq_iff_eq.1 hgap
    decide

theorem free_of_isName (hn : IsName name) : b.Free name :=
  LineBreaks.free_of_plain (List.all_eq_true.2 fun c hc => isPlainChar_of_isNameChar (hn c hc))

theorem free_of_mem_plain {ls : List String} (h : ls.all fun line => line.toList.all isPlainChar) :
    ∀ line ∈ ls, b.Free line :=
  fun line hline => LineBreaks.free_of_plain (List.all_eq_true.1 h line hline)

namespace Typed.Unbroken

variable {t : Typed} (h : t.Unbroken b)

include h

theorem free_subtypeLine : b.Free (subtypeLine t) := by
  have hplain : ∀ s ∈ ["\tsubtype ", " is ", ";"], b.Free s := free_of_mem_plain rfl
  simp only [List.forall_mem_cons] at hplain
  simp [subtypeLine, LineBreaks.free_append_iff, h.1, h.2, hplain]

theorem free_inputLine : b.Free (inputLine t) := by
  have hplain : ∀ s ∈ ["\t", " : in ", ";"], b.Free s := free_of_mem_plain rfl
  simp only [List.forall_mem_cons] at hplain
  simp [inputLine, LineBreaks.free_append_iff, h.1, h.2, hplain]

theorem free_outputLine : b.Free (outputLine t) := by
  have hplain : ∀ s ∈ ["\t", " : out ", ";"], b.Free s := free_of_mem_plain rfl
  simp only [List.forall_mem_cons] at hplain
  simp [outputLine, LineBreaks.free_append_iff, h.1, h.2, hplain]

theorem free_signalLine : b.Free (signalLine t) := by
  have hplain : ∀ s ∈ ["signal ", " : ", ";"], b.Free s := free_of_mem_plain rfl
  simp only [List.forall_mem_cons] at hplain
  simp [signalLine, LineBreaks.free_append_iff, h.1, h.2, hplain]

end Typed.Unbroken

namespace Wire.Unbroken

variable {w : Wire} (h : w.Unbroken b)

include h

theorem free_assignmentLine : b.Free (assignmentLine w) := by
  have hplain : ∀ s ∈ [" <= ", ";"], b.Free s := free_of_mem_plain rfl
  simp only [List.forall_mem_cons] at hplain
  simp [assignmentLine, LineBreaks.free_append_iff, h.1, h.2, hplain]

theorem free_bindingLine : b.Free (bindingLine w) := by
  have hplain : ∀ s ∈ ["\t", " => ", ","], b.Free s := free_of_mem_plain rfl
  simp only [List.forall_mem_cons] at hplain
  simp [bindingLine, LineBreaks.free_append_iff, h.1, h.2, hplain]

end Wire.Unbroken

theorem free_captions : ∀ line ∈ captions, b.Free line := free_of_mem_plain (by decide +kernel)

theorem Instantiation.Unbroken.free_opening {i : Instantiation} (h : i.Unbroken b) : b.Free i.opening := by
  have hmark : b.Free ": entity work." := LineBreaks.free_of_plain rfl
  simp [opening, LineBreaks.free_append_iff, h.name, h.entity, hmark]

theorem Netlist.Unbroken.free_body (h : n.Unbroken b) : ∀ line ∈ n.body, b.Free line := by
  intro line hline
  rcases n.mem_body hline with hcaption | ⟨t, ht, rfl⟩ | ⟨w, hw, rfl⟩ | ⟨i, hi, rfl⟩ | ⟨i, hi, w, hw, rfl⟩
  · exact free_captions line hcaption
  · exact (h.signals t ht).free_signalLine
  · exact (h.assignments w hw).free_assignmentLine
  · exact (h.instantiations i hi).free_opening
  · exact ((h.instantiations i hi).wires w hw).free_bindingLine

namespace Design.Unbroken

variable (h : d.Unbroken b)

include h

theorem free_front : ∀ line ∈ d.front, b.Free line := by
  have hplain : ∀ s ∈ ["package ", "_types is", "end ", "_types;", "use work.", "_types.all;", header,
      "library IEEE;", "use IEEE.STD_LOGIC_1164.ALL;", "", "-- Package def --"], b.Free s :=
    free_of_mem_plain (by decide +kernel)
  have hsubtypes : ∀ t ∈ d.subtypes, b.Free (subtypeLine t) := fun t ht => (h.subtypes t ht).free_subtypeLine
  simp only [List.forall_mem_cons] at hplain
  simp only [front, packageLines, libraryClause, List.forall_mem_append, List.forall_mem_cons,
    List.forall_mem_map, List.not_mem_nil, LineBreaks.free_append_iff, h.name, hplain, false_implies,
    implies_true, true_and, and_true]
  exact hsubtypes

theorem free_portLines : ∀ line ∈ d.portLines, b.Free line := by
  have hplain : ∀ s ∈ ["entity ", " is", "port(", "", "\t-- Inputs --", "\t-- Outputs --",
      "\t-- Standard Signals --", "\tclk : in std_logic;", "\trst : in std_logic", ");", "end ", ";"],
      b.Free s := free_of_mem_plain (by decide +kernel)
  have hports := List.forall_mem_append.1 h.ports
  simp only [List.forall_mem_cons] at hplain
  simp only [portLines, List.forall_mem_append, List.forall_mem_cons,
    List.forall_mem_map, List.not_mem_nil, LineBreaks.free_append_iff, h.name, hplain, false_implies,
    implies_true, true_and, and_true]
  exact ⟨fun t ht => (hports.1 t ht).free_inputLine, fun t ht => (hports.2 t ht).free_outputLine⟩

theorem free_architectureLines : ∀ line ∈ d.architectureLines, b.Free line := by
  have hplain : ∀ s ∈ ["", "-- Architecture def --", "architecture ", architectureName, " of ", " is", "end ",
      ";"], b.Free s := free_of_mem_plain (by decide +kernel)
  have hbody : ∀ line ∈ d.architectureBody, b.Free line := by
    unfold architectureBody
    cases hd : d.netlist with
    | none =>
      have hatomic : ∀ line ∈ atomicBody, b.Free line := free_of_mem_plain (by decide +kernel)
      exact hatomic
    | some n => exact (h.netlist n hd).free_body
  simp only [List.forall_mem_cons] at hplain
  rw [architectureLines_eq]
  simp only [List.forall_mem_append, List.forall_mem_cons, List.not_mem_nil, LineBreaks.free_append_iff, h.name,
    hplain, false_implies, implies_true, true_and, and_true]
  exact hbody

/-- No line of the design holds a break. -/
theorem free_lines : ∀ line ∈ d.lines, b.Free line := by
  rw [lines_eq]
  exact List.forall_mem_append.2 ⟨List.forall_mem_append.2 ⟨h.free_front, h.free_portLines⟩,
    h.free_architectureLines⟩

/-- **No line is broken up**: the text of the design falls into its lines. -/
theorem lines_text : b.lines d.text = d.lines ++ [""] :=
  LineBreaks.lines_intercalate_of_free (List.cons_ne_nil _ _) h.free_lines

end Design.Unbroken

end Entity

open Entity

namespace Store

variable {g : Store} {s : Settings} {relevant : UidSet} {a : Uid} {b : LineBreaks}

/-! ### What a model writes -/

/-- A name with the type of a class holds no break, whatever the label of the class is. -/
theorem unbroken_declarations {name : String} {u : Uid} (hsuffix : b.Free s.typeSuffix) (hn : IsName name) :
    ∀ t ∈ g.declarations s name u, t.Unbroken b := by
  intro t ht
  obtain ⟨c, -, rfl⟩ := List.mem_map.1 ht
  exact ⟨free_of_isName hn, LineBreaks.free_append_iff.2 ⟨free_of_isName (isName_ofText _), hsuffix⟩⟩

/-- **Whatever the labels and uids of a model are**, its designs hold no breaks but those of the suffix of types
and of the labels of datatypes. -/
theorem unbroken_netlist (hsuffix : b.Free s.typeSuffix) (c : Context) : (g.netlist s c).Unbroken b := by
  have hport : ∀ p {port}, IsName port → (binding p port).Unbroken b := fun p _ hname =>
    ⟨free_of_isName hname, free_of_isName (isName_ofSignal p hname)⟩
  refine ⟨fun t ht => ?_, fun w hw => ?_, fun i hi => ?_⟩
  · obtain ⟨p, -, ht⟩ := List.mem_flatMap.1 ht
    rcases List.mem_append.1 ht with ht | ht
    · obtain ⟨i, -, ht⟩ := List.mem_flatMap.1 ht
      exact unbroken_declarations hsuffix (isName_ofSignal p (g.isName_inputPort i)) t ht
    · obtain ⟨o, -, ht⟩ := List.mem_flatMap.1 ht
      exact unbroken_declarations hsuffix (isName_ofSignal p (g.isName_outputPort o)) t ht
  · obtain ⟨htarget, hsource⟩ := isName_assignments w hw
    exact ⟨free_of_isName htarget, free_of_isName hsource⟩
  · simp only [netlist, List.mem_flatMap, List.mem_map] at hi
    obtain ⟨p, -, c, -, rfl⟩ := hi
    exact ⟨free_of_isName (isName_ofPart p), free_of_isName (isName_ofText _),
      List.forall_mem_append.2 ⟨List.forall_mem_map.2 fun u _ => hport p (g.isName_inputPort u),
        List.forall_mem_map.2 fun u _ => hport p (g.isName_outputPort u)⟩⟩

theorem unbroken_design (hsuffix : b.Free s.typeSuffix) (hlabels : ∀ u ∈ relevant, b.Free (g.labelOf u)) :
    (g.design s relevant (g.context a)).Unbroken b := by
  refine ⟨free_of_isName (isName_ofText _), fun t ht => ?_,
    List.forall_mem_append.2 ⟨fun t ht => ?_, fun t ht => ?_⟩, fun n hn => ?_⟩
  · simp only [design, resolutions, subtypes, List.mem_flatMap, List.mem_map] at ht
    obtain ⟨r, ⟨k, -, rfl⟩, u, hu, rfl⟩ := ht
    exact ⟨LineBreaks.free_append_iff.2 ⟨free_of_isName (isName_ofText _), hsuffix⟩,
      hlabels u (UidSet.mem_inter.1 hu).1⟩
  · obtain ⟨i, -, ht⟩ := List.mem_flatMap.1 ht
    exact unbroken_declarations hsuffix (g.isName_inputPort i) t ht
  · obtain ⟨o, -, ht⟩ := List.mem_flatMap.1 ht
    exact unbroken_declarations hsuffix (g.isName_outputPort o) t ht
  · obtain rfl := eq_netlist_of_mem hn
    exact unbroken_netlist hsuffix _

end Store

end DesignGraph
