import Ripple.Analysis.GoService
import Ripple.Proofs.Distinct

/-! # What is found in Go sources

Every impact of a source is on that source, on a component whose name says of which sort it is. So
impacts of the module files, of sources, and of the environment are never impacts on one component.
-/
namespace Ripple.Analysis.GoService

def findingLeads : List String :=
  ["Lambda: ", "Struct: ", "Interface: ", "SQS Handler: ", "API Handler: "]

variable {s : Setting} {file content diff component : String} {i : Impact}

/-- An impact of a source is on that source and on a component of one of the sorts. -/
theorem fileImpacts_cases (h : i ∈ fileImpacts s file content diff) : i.file = file ∧
    ((∃ lead ∈ findingLeads, ∃ name, i.component = lead ++ name) ∨
      i.component = "Environment Config" ∧ environmentRead.occursIn diff.toList = true) := by
  simp only [fileImpacts, List.mem_append, List.mem_map, List.mem_ite_nil_right,
    List.mem_singleton] at h
  rcases h with ((((⟨f, -, rfl⟩ | ⟨t, -, rfl⟩) | ⟨t, -, rfl⟩) | ⟨-, rfl⟩) | ⟨-, rfl⟩) | ⟨hread, rfl⟩
  · exact ⟨rfl, .inl ⟨"Lambda: ", by decide, f.name, rfl⟩⟩
  · exact ⟨rfl, .inl ⟨"Struct: ", by decide, t.name, rfl⟩⟩
  · exact ⟨rfl, .inl ⟨"Interface: ", by decide, t.name, rfl⟩⟩
  · exact ⟨rfl, .inl ⟨"SQS Handler: ", by decide, baseStem file, rfl⟩⟩
  · exact ⟨rfl, .inl ⟨"API Handler: ", by decide, baseStem file, rfl⟩⟩
  · exact ⟨rfl, .inr ⟨rfl, hread⟩⟩

/-- A name that begins in another way is not that of a component in a source. -/
theorem ne_of_findingLeads (hfirst : component.toList.head? ∉ ['L', 'S', 'I', 'A'].map some) :
    ∀ lead ∈ findingLeads, ∀ name, component ≠ lead ++ name := by
  intro lead hlead name
  rintro rfl
  simp only [findingLeads, List.mem_cons, List.not_mem_nil, or_false] at hlead
  rcases hlead with rfl | rfl | rfl | rfl | rfl <;> simp at hfirst

theorem component_ne_dependencies (h : i ∈ fileImpacts s file content diff) :
    i.component ≠ "Go Dependencies" := by
  intro heq
  rcases (fileImpacts_cases h).2 with ⟨lead, hlead, name, hname⟩ | ⟨hname, -⟩
  · exact ne_of_findingLeads (by decide) lead hlead name (heq.symm.trans hname)
  · exact absurd (heq.symm.trans hname) (by decide)

theorem component_of_mem_dependencyImpacts {files : List String}
    (h : i ∈ dependencyImpacts s files) : i.component = "Go Dependencies" := by
  obtain ⟨file, -, rfl⟩ := List.mem_map.mp h
  rfl

end Ripple.Analysis.GoService
