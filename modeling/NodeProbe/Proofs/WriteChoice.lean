import NodeProbe.Component.Scripted
import NodeProbe.Proofs.Carry

/-!
# A write is an ordered choice

A write goes to the first of its candidates that takes it: the field of the name, the setter
of the name, and then the same two in the part that the name reaches into. What a candidate
does with a text is said without regard to the others.
-/
namespace NodeProbe

variable {μ : Type}

structure Candidate (μ : Type) where
  /-- The name that its table is asked for. -/
  name : String
  type : ValueType
  /-- How a value is stored, unless it is read-only. -/
  set? : Option (Value → Action μ Unit)

namespace Candidate

def Atomic (k : Candidate μ) : Prop :=
  ∀ set, k.set? = some set → ∀ v m e, (set v m).1 = .error e → (set v m).2 = m

def ofAttribute (name : String) (a : Attribute μ) : Candidate μ := ⟨name, a.type, a.set?⟩

end Candidate

def Setter.candidate (name : String) (s : Setter μ) : Candidate μ := ⟨name, s.type, some s.apply⟩

def WriteTarget.candidate : WriteTarget μ × String → Candidate μ
  | (field a, name) => .ofAttribute name a
  | (setter s, name) => s.candidate name

variable {targets : List (WriteTarget μ × String)}

end NodeProbe
