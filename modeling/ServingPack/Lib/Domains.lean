import ServingPack.Lib.GoString

open golang

/-! Domain names as the labels between their dots. -/

namespace domains

def labels (name : GoString) : List GoString := name.splitOn 46

def domain (parts : List GoString) : GoString := [46].intercalate parts

/-- Whether a text has no dot. -/
def Dotless (label : GoString) : Prop := 46 ∉ label

@[simp] theorem domain_labels (name : GoString) : domain (labels name) = name :=
  List.intercalate_splitOn 46

theorem labels_domain {parts : List GoString} (hdots : ∀ l ∈ parts, Dotless l) (hne : parts ≠ []) :
    labels (domain parts) = parts :=
  List.splitOn_intercalate 46 hdots hne

theorem labels_injective : Function.Injective labels := by
  intro name name' h
  rw [← domain_labels name, h, domain_labels]

private theorem labels_ne_nil (name : GoString) : labels name ≠ [] := List.splitOn_ne_nil 46 name

theorem domain_cons {label : GoString} {rest : List GoString} (hne : rest ≠ []) :
    domain (label :: rest) = label ++ 46 :: domain rest := by
  cases rest with
  | nil => exact absurd rfl hne
  | cons next rest => simp [domain, List.intercalate]

private theorem dotless_of_mem_labels {name label : GoString} (h : label ∈ labels name) :
    Dotless label := by
  rw [labels] at h
  induction name generalizing label with
  | nil =>
    rw [List.splitOn_nil, List.mem_singleton] at h
    rw [h]
    exact List.not_mem_nil
  | cons c rest ih =>
    rw [List.splitOn_cons_eq_if_modifyHead] at h
    split_ifs at h with hc
    · obtain rfl | hrest := List.mem_cons.mp h
      · exact List.not_mem_nil
      · exact ih hrest
    · cases hsplit : rest.splitOn 46 with
      | nil => exact absurd hsplit (List.splitOn_ne_nil 46 rest)
      | cons first others =>
        rw [hsplit] at h ih
        obtain rfl | hothers := List.mem_cons.mp h
        · intro hdot
          obtain hc' | hfirst := List.mem_cons.mp hdot
          · exact hc (by simp [← hc'])
          · exact ih List.mem_cons_self hfirst
        · exact ih (List.mem_cons_of_mem _ hothers)

/-- A name is under a zone when the zone's labels are its last and not its first. -/
theorem hasSuffix_zone_iff {name zone : GoString} :
    hasSuffix name (46 :: zone) = true ↔
    ∃ front, front ≠ [] ∧ labels name = front ++ labels zone := by
  rw [hasSuffix_iff]
  constructor
  · rintro ⟨stem, rfl⟩
    exact ⟨labels stem, labels_ne_nil stem, List.splitOn_append_cons_self stem zone⟩
  · rintro ⟨front, hne, h⟩
    refine ⟨domain front, ?_⟩
    apply labels_injective
    rw [h]
    have hfront : labels (domain front) = front :=
      labels_domain (fun l hl => dotless_of_mem_labels (h ▸ List.mem_append_left _ hl)) hne
    calc front ++ labels zone = labels (domain front) ++ labels zone := by rw [hfront]
      _ = labels (domain front ++ 46 :: zone) :=
        (List.splitOn_append_cons_self (domain front) zone).symm

/-- Whether a name is under a zone is settled by as many last labels as the zone has. -/
theorem hasSuffix_zone_of_labels {name zone : GoString} {front last : List GoString}
    (h : labels name = front ++ last) (hne : front ≠ [])
    (hlength : (labels zone).length ≤ last.length) :
    hasSuffix name (46 :: zone) = true ↔ labels zone <:+ last := by
  rw [hasSuffix_zone_iff, h]
  constructor
  · rintro ⟨before, _, hbefore⟩
    have hzone : labels zone <:+ front ++ last := by
      rw [hbefore]
      exact List.suffix_append before (labels zone)
    exact List.suffix_of_suffix_length_le hzone (List.suffix_append front last) hlength
  · rintro ⟨mid, rfl⟩
    exact ⟨front ++ mid, by simp [hne], (List.append_assoc ..).symm⟩

end domains
