import FlowCanvas.Text.Entity

/-! Encoded text holds none of the characters that it replaces, but for the ampersands that its
entities begin with. -/

namespace FlowCanvas.Entity

variable {c d : Char} {word : String} {cs : List Char}

theorem not_mem_replace (hc : c ∉ cs) (hword : c ∉ word.toList) : c ∉ replace d word cs := by
  intro h
  obtain ⟨e, he, h⟩ := List.mem_flatMap.mp h
  split at h
  · exact hword h
  · exact hc (List.mem_singleton.mp h ▸ he)

theorem not_mem_replace_self (hword : c ∉ word.toList) : c ∉ replace c word cs := by
  intro h
  obtain ⟨e, -, h⟩ := List.mem_flatMap.mp h
  split at h
  · exact hword h
  · rename_i he
    exact he (List.mem_singleton.mp h).symm

theorem not_mem_encode (s : String) (hc : c ∈ ['<', '>', '"', '\x27']) : c ∉ (encode s).toList := by
  rw [encode, String.toList_ofList]
  simp only [table, List.foldl_cons, List.foldl_nil]
  simp only [List.mem_cons, List.not_mem_nil, or_false] at hc
  rcases hc with rfl | rfl | rfl | rfl
  · exact not_mem_replace (not_mem_replace (not_mem_replace (not_mem_replace_self (by decide))
      (by decide)) (by decide)) (by decide)
  · exact not_mem_replace (not_mem_replace (not_mem_replace_self (by decide)) (by decide))
      (by decide)
  · exact not_mem_replace (not_mem_replace_self (by decide)) (by decide)
  · exact not_mem_replace_self (by decide)

end FlowCanvas.Entity
