import DirectoryReconcile.Proofs.Dict
import DirectoryReconcile.Proofs.Directory.Dispatch
import DirectoryReconcile.Proofs.Directory.OneEntry
import DirectoryReconcile.Proofs.Schema.Regular

/-!
# The operation that a method is

Of a type with regular methods each command is one operation, and a method of list attributes adds
or removes their values whenever a call carries some.
-/

namespace DirectoryReconcile

namespace RemoteCall

/-- The arguments of a call as the service reads them. -/
def arguments (call : RemoteCall) : Arguments := ⟨call.positional, call.item⟩

theorem ofParams_params (call : RemoteCall) : Arguments.ofParams call.params = call.arguments := by
  simp [params, Arguments.ofParams, arguments, Json.asArray?, Json.ofDict, Json.fields]

end RemoteCall

namespace Operation

variable {declaration : Declaration} (regular : declaration.Regular) {arguments : Arguments}
  {method : String}

theorem find_mem_commandMethods (declaration : Declaration) :
    declaration.methods.find ∈ declaration.commandMethods := by
  simp [Declaration.commandMethods]

theorem modify_mem_commandMethods (declaration : Declaration) :
    declaration.methods.modify ∈ declaration.commandMethods := by
  simp [Declaration.commandMethods]

theorem flag_mem_commandMethods (henable : declaration.enable.isSome) :
    declaration.methods.enable ∈ declaration.commandMethods ∧
      declaration.methods.disable ∈ declaration.commandMethods := by
  simp [Declaration.commandMethods, henable]

theorem ne_of_not_mem_commandMethods (h : method ∉ declaration.commandMethods) :
    method ≠ declaration.methods.find ∧ method ≠ declaration.methods.modify ∧
      ¬(method = declaration.methods.enable ∧ declaration.enable.isSome) ∧
      ¬(method = declaration.methods.disable ∧ declaration.enable.isSome) := by
  refine ⟨?_, ?_, ?_, ?_⟩
  · rintro rfl
    exact h (find_mem_commandMethods declaration)
  · rintro rfl
    exact h (modify_mem_commandMethods declaration)
  · rintro ⟨rfl, henable⟩
    exact h (flag_mem_commandMethods henable).1
  · rintro ⟨rfl, henable⟩
    exact h (flag_mem_commandMethods henable).2

theorem ofMethod?_find (arguments : Arguments) :
    ofMethod? declaration declaration.methods.find arguments = some .find := by
  unfold ofMethod?
  rw [if_pos rfl]

include regular

theorem not_mem_commandMethods_of_routed {adding : Bool} {spec : AttributeSpec}
    (h : spec ∈ routedBy declaration adding method) : method ∉ declaration.commandMethods := by
  obtain ⟨hspec, route, hroute, rfl⟩ := mem_routedBy.1 h
  exact (regular.routes_named spec hspec route hroute adding).1

theorem routedBy_command (adding : Bool) (h : method ∈ declaration.commandMethods) :
    routedBy declaration adding method = [] :=
  List.eq_nil_iff_forall_not_mem.2 fun _ hspec ↦
    not_mem_commandMethods_of_routed regular hspec h

theorem routedBy_create (adding : Bool) (hexplicit : declaration.creation = .explicit) :
    routedBy declaration adding declaration.methods.add = [] := by
  apply List.eq_nil_iff_forall_not_mem.2
  intro spec hspec
  obtain ⟨hspec, route, hroute, hmethod⟩ := mem_routedBy.1 hspec
  exact (regular.routes_named spec hspec route hroute adding).2 hexplicit hmethod

theorem ofMethod?_add (hexplicit : declaration.creation = .explicit) (arguments : Arguments) :
    ofMethod? declaration declaration.methods.add arguments = some .add := by
  obtain ⟨hfind, -, henable, hdisable⟩ := ne_of_not_mem_commandMethods regular.add_named
  simp [ofMethod?, hfind, henable, hdisable, routedBy_create regular _ hexplicit]

theorem ofMethod?_modify (arguments : Arguments) :
    ofMethod? declaration declaration.methods.modify arguments = some .modify := by
  have hmem := modify_mem_commandMethods declaration
  have hadd : declaration.methods.modify ≠ declaration.methods.add := fun h ↦
    regular.add_named (h ▸ hmem)
  have hnodup := regular.commands_nodup
  unfold Declaration.commandMethods at hnodup
  have hfind : declaration.methods.modify ≠ declaration.methods.find := by
    intro h
    simp [h] at hnodup
  have hflag (hsome : declaration.enable.isSome = true) :
      declaration.methods.modify ≠ declaration.methods.enable ∧
        declaration.methods.modify ≠ declaration.methods.disable := by
    simp only [hsome, if_true, List.cons_append, List.nil_append, List.nodup_cons, List.mem_cons,
      not_or] at hnodup
    exact ⟨hnodup.2.1.1, hnodup.2.1.2.1⟩
  by_cases hsome : declaration.enable.isSome
  · simp [ofMethod?, hfind, hflag hsome, routedBy_command regular _ hmem, hadd]
  · simp [ofMethod?, hfind, hsome, routedBy_command regular _ hmem, hadd]

theorem ofMethod?_setEnabled (enabled : Bool) (hsome : declaration.enable.isSome)
    (arguments : Arguments) :
    ofMethod? declaration
      (if enabled then declaration.methods.enable else declaration.methods.disable) arguments =
        some (.setEnabled enabled) := by
  have hnodup := regular.commands_nodup
  unfold Declaration.commandMethods at hnodup
  simp only [hsome, if_true, List.cons_append, List.nil_append, List.nodup_cons, List.mem_cons,
    not_or] at hnodup
  have henable : declaration.methods.enable ≠ declaration.methods.find := Ne.symm hnodup.1.2.1
  have hdisable : declaration.methods.disable ≠ declaration.methods.find := Ne.symm hnodup.1.2.2.1
  have hother : declaration.methods.disable ≠ declaration.methods.enable := Ne.symm hnodup.2.2.1.1
  cases enabled
  · simp [ofMethod?, hdisable, hother, hsome]
  · simp [ofMethod?, henable, hsome]

theorem ofMethod?_listAdd {spec : AttributeSpec} (hspec : spec ∈ routedBy declaration true method)
    (hcarries : carries declaration arguments spec = true) :
    ofMethod? declaration method arguments = some (.listAdd (routedBy declaration true method)) := by
  obtain ⟨hfind, -, henable, hdisable⟩ :=
    ne_of_not_mem_commandMethods (not_mem_commandMethods_of_routed regular hspec)
  have hany : (routedBy declaration true method).any (carries declaration arguments) = true :=
    List.any_eq_true.2 ⟨spec, hspec, hcarries⟩
  simp only [ofMethod?, hfind, if_false, Bool.and_eq_true, decide_eq_true_eq, henable, hdisable,
    hany, if_true]

theorem ofMethod?_listRemove {spec : AttributeSpec}
    (hspec : spec ∈ routedBy declaration false method)
    (hcarries : carries declaration arguments spec = true) :
    ofMethod? declaration method arguments =
      some (.listRemove (routedBy declaration false method)) := by
  obtain ⟨hfind, -, henable, hdisable⟩ :=
    ne_of_not_mem_commandMethods (not_mem_commandMethods_of_routed regular hspec)
  have hany : (routedBy declaration false method).any (carries declaration arguments) = true :=
    List.any_eq_true.2 ⟨spec, hspec, hcarries⟩
  have hnone : routedBy declaration true method = [] := by
    apply List.eq_nil_iff_forall_not_mem.2
    intro other hother
    obtain ⟨hspec, s, hs, hremove⟩ := mem_routedBy.1 hspec
    obtain ⟨hother, r, hr, hadd⟩ := mem_routedBy.1 hother
    exact (regular.routes_directed other hother r hr spec hspec s hs).1 (hadd.trans hremove.symm)
  simp only [ofMethod?, hfind, if_false, Bool.and_eq_true, decide_eq_true_eq, henable, hdisable,
    hany, if_true, hnone, List.any_nil, Bool.false_eq_true]

/-- The arguments that remove a whole object carry no values of a list. -/
theorem ofMethod?_remove (positional : List Json) :
    ofMethod? declaration declaration.methods.remove ⟨positional, declaration.removeArgs⟩ =
      some .remove := by
  have hnamed := regular.remove_named
  rw [List.mem_cons, not_or] at hnamed
  obtain ⟨hfind, hmodify, henable, hdisable⟩ := ne_of_not_mem_commandMethods hnamed.2
  have hadds : routedBy declaration true declaration.methods.remove = [] := by
    apply List.eq_nil_iff_forall_not_mem.2
    intro spec hspec
    obtain ⟨hspec, route, hroute, hmethod⟩ := mem_routedBy.1 hspec
    exact (regular.routes_directed spec hspec route hroute spec hspec route hroute).2 hmethod
  have hremoves : (routedBy declaration false declaration.methods.remove).any
      (carries declaration ⟨positional, declaration.removeArgs⟩) = false := by
    apply List.any_eq_false.2
    intro spec hspec
    obtain ⟨hspec, route, hroute, hmethod⟩ := mem_routedBy.1 hspec
    obtain ⟨hstyle, hparam⟩ := regular.remove_whole spec hspec route hroute hmethod
    simp [carries, hroute, hstyle, Dict.contains, hparam]
  simp only [ofMethod?, hfind, if_false, Bool.and_eq_true, decide_eq_true_eq, henable, hdisable,
    hadds, hremoves, List.any_nil, Bool.false_eq_true, hnamed.1, hmodify, if_true]

end Operation

namespace Directory

open Operation

/-- The answer to a call with a method of a known type. -/
theorem post_eq {directory : Directory} (hregistry : directory.registry = .builtin)
    {schema : ObjectSchema} (hschema : schema ∈ ObjectSchema.builtins) {call : RemoteCall}
    {operation : Operation}
    (hoperation : ofMethod? schema.toDeclaration call.method call.arguments = some operation) :
    directory.post call.method call.params =
      let received := directory.receive call.method call.params
      match directory.faults.get? call.method with
      | some (.transport message) => (.error (.transport call.method message none), received)
      | some (.fault code message) =>
        (.ok (refusalBody ⟨code, "InjectedFault", message⟩), received)
      | none =>
        match operation.perform schema.toDeclaration (directory.entriesOf schema.name)
          call.arguments with
        | .ok (result, entries) =>
          (.ok (resultBody result), received.withEntries schema.name entries)
        | .error refusal =>
          (.ok (refusalBody refusal),
            received.withEntries schema.name (directory.entriesOf schema.name)) := by
  have hreceived : (directory.receive call.method call.params).registry = .builtin := hregistry
  have hmethod : call.method ∈ methodNames schema.toDeclaration :=
    ofMethod?_isSome_iff.1 (Option.isSome_of_eq_some hoperation)
  have hdispatch := dispatch?_eq hreceived hschema hmethod call.arguments
  rw [hoperation, Option.map_some] at hdispatch
  have hfaults : (directory.receive call.method call.params).faults = directory.faults := rfl
  have hentries : (directory.receive call.method call.params).entriesOf schema.name =
      directory.entriesOf schema.name := rfl
  unfold post
  simp only [hfaults, handle, RemoteCall.ofParams_params, hdispatch, hentries, execute_eq]
  cases directory.faults.get? call.method with
  | some fault => cases fault <;> rfl
  | none =>
    cases operation.perform schema.toDeclaration (directory.entriesOf schema.name) call.arguments <;>
      rfl

end Directory

end DirectoryReconcile
