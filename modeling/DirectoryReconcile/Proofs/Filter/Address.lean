import DirectoryReconcile.Filter.Address
import DirectoryReconcile.Filter.HostName

/-!
# Components of addresses

Every text is made of components in one way, the empty ones at its ends and between neighbouring
dots included. Reversing an address reverses its components, so what was first is last, and
reversing it again gives it back.
-/

namespace DirectoryReconcile.Address

/-- The components of a text: none of them has a dot, and with dots between them they are the
text. -/
structure IsDotted (text : String) (components : List String) : Prop where
  joined : ".".intercalate components = text
  dotless : ∀ component ∈ components, '.' ∉ component.toList
  nonempty : components ≠ []

variable {text : String} {components others : List String}

theorem octets_eq_iff : octets text = components ↔ IsDotted text components :=
  Text.splitAll_eq_iff.trans
    ⟨fun ⟨hjoined, hdotless, hne⟩ ↦ ⟨hjoined, hdotless, hne⟩,
      fun ⟨hjoined, hdotless, hne⟩ ↦ ⟨hjoined, hdotless, hne⟩⟩

theorem isDotted_octets (text : String) : IsDotted text (octets text) := octets_eq_iff.1 rfl

theorem IsDotted.iff_eq (h : IsDotted text components) :
    IsDotted text others ↔ others = components := by
  rw [← octets_eq_iff, octets_eq_iff.2 h, eq_comm]

theorem isDotted_joinWith (hdotless : ∀ component ∈ components, '.' ∉ component.toList)
    (hne : components ≠ []) : IsDotted (Text.joinWith "." components) components :=
  ⟨(Text.joinWith_eq_intercalate "." components).symm, hdotless, hne⟩

theorem IsDotted.head?_eq (h : IsDotted text components) :
    components.head? = some (HostName.short text) := by
  obtain ⟨first, rest, rfl⟩ := List.exists_cons_of_ne_nil h.nonempty
  have hoctets : Text.splitAll '.' text = first :: rest := octets_eq_iff.2 h
  rw [HostName.short, hoctets]
  rfl

theorem IsDotted.getLast?_eq (h : IsDotted text components) :
    components.getLast? = some (lastOctet text) := by
  rw [lastOctet, octets_eq_iff.2 h, List.getLastD_eq_getLast?,
    List.getLast?_eq_some_getLast h.nonempty, Option.getD_some]

/-! ## Reversed addresses -/

theorem isDotted_reverse (h : IsDotted text components) :
    IsDotted (reverse text) components.reverse := by
  rw [reverse, octets_eq_iff.2 h]
  refine isDotted_joinWith (fun component hmem ↦ ?_) (List.reverse_ne_nil_iff.2 h.nonempty)
  exact h.dotless component (List.mem_reverse.1 hmem)

theorem reverse_reverse (address : String) : reverse (reverse address) = address := by
  have h := isDotted_octets address
  rw [reverse, octets_eq_iff.2 (isDotted_reverse h), List.reverse_reverse,
    Text.joinWith_eq_intercalate, h.joined]

theorem fourOctets_eq (h : IsDotted text components) : fourOctets text =
    [components.getD 0 "0", components.getD 1 "0", components.getD 2 "0",
      components.getD 3 "0"] := by
  rw [fourOctets, octets_eq_iff.2 h]
  match components with
  | [] | [_] | [_, _] | [_, _, _] | _ :: _ :: _ :: _ :: _ => rfl

theorem not_mem_of_mem_fourOctets {octet : String} (h : octet ∈ fourOctets text) :
    '.' ∉ octet.toList := by
  rcases List.mem_append.1 h with hknown | hzero
  · exact (isDotted_octets text).dotless octet (List.mem_of_mem_take hknown)
  · rw [List.eq_of_mem_replicate hzero]
    decide

theorem isDotted_reversePadded (h : IsDotted text components) :
    IsDotted (reversePadded text)
      [components.getD 3 "0", components.getD 2 "0", components.getD 1 "0",
        components.getD 0 "0"] := by
  have hfour := fourOctets_eq h
  have hdotted : IsDotted (reversePadded text) (fourOctets text).reverse :=
    isDotted_joinWith (fun _ hmem ↦ not_mem_of_mem_fourOctets (List.mem_reverse.1 hmem))
      (by simp [hfour])
  rwa [hfour] at hdotted

/-- The components of a reversed address are those of the address from the last to the first, and
they give the address back when they are reversed. So the last one is the host part of the address,
and the first one is its last octet. A padded address has four components, the first four of the
address in reverse, with zeros for those that it does not have. -/
theorem reverse_mirrors_components (address : String) : ∃ components : List String,
    (∀ others, IsDotted address others ↔ others = components) ∧
      (∀ others, IsDotted (reverse address) others ↔ others = components.reverse) ∧
      reverse (reverse address) = address ∧
      (components.head? = some (HostName.short address) ∧
        lastOctet (reverse address) = HostName.short address) ∧
      (components.getLast? = some (lastOctet address) ∧
        HostName.short (reverse address) = lastOctet address) ∧
      ∀ others, IsDotted (reversePadded address) others ↔
        others = [components.getD 3 "0", components.getD 2 "0", components.getD 1 "0",
          components.getD 0 "0"] := by
  have h := isDotted_octets address
  have hreverse := isDotted_reverse h
  refine ⟨octets address, fun _ ↦ h.iff_eq, fun _ ↦ hreverse.iff_eq, reverse_reverse address,
    ⟨h.head?_eq, ?_⟩, ⟨h.getLast?_eq, ?_⟩, fun _ ↦ (isDotted_reversePadded h).iff_eq⟩
  · have hlast := hreverse.getLast?_eq
    rw [List.getLast?_reverse, h.head?_eq] at hlast
    exact (Option.some.inj hlast).symm
  · have hfirst := hreverse.head?_eq
    rw [List.head?_reverse, h.getLast?_eq] at hfirst
    exact (Option.some.inj hfirst).symm

/-- Empty components move like others, and no octet beyond the fourth one is kept. -/
example : reverse "..a" = "a.." ∧ reversePadded "10.0" = "0.0.0.10" ∧
    reversePadded "1.2.3.4.5" = "4.3.2.1" := by decide +kernel

end DirectoryReconcile.Address
