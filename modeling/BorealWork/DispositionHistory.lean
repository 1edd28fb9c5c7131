/- What the check of a container's dispositions establishes: a later disposition of a descendant names
something, and nothing more is known of what it names. -/
import BorealWork.IntakePlanning

namespace Boreal.Planning
open Drain WorkModel

section Acceptance

variable {container : WorkNode} {descendants : List WorkNode} {dispositions : List ContainerDisposition}

end Acceptance

section Law

def Supersedes (dispositions : List ContainerDisposition) (j i : Fin dispositions.length) : Prop :=
  j ≠ i ∧ dispositions[j].descendantId = dispositions[i].descendantId ∧
    dispositions[j].supersedesId = some dispositions[i].id

variable {container : WorkNode} {descendants : List WorkNode} {dispositions : List ContainerDisposition}

theorem Supersedes.named {j i : Fin dispositions.length} (supersedes : Supersedes dispositions j i) :
    dispositions[j].supersedesId ≠ none := by
  rw [supersedes.2.2]
  exact Option.some_ne_none _

def milestone : WorkNode := ⟨⟨"m"⟩, ⟨"p"⟩, .milestone, .container, none, "Milestone"⟩

instance (dispositions : List ContainerDisposition) (j i : Fin dispositions.length) :
    Decidable (Supersedes dispositions j i) := inferInstanceAs (Decidable (_ ∧ _ ∧ _))

end Law

end Boreal.Planning
