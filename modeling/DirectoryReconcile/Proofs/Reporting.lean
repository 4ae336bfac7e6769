import DirectoryReconcile.Proofs.Convergence
import DirectoryReconcile.Proofs.Ensure.Reports

/-!
# Reported objects

A run that succeeds reports the object of its request as the directory stores it afterwards: a search
for it finds the same object. Only a record that is removed with its last list values is not reported
as an object without fields.
-/

namespace DirectoryReconcile

namespace Directory

open Entry Ensure

variable {history : History} {directory : Directory} {schema : ObjectSchema}
  {desired : DesiredState} {outcome : Outcome}

/-- What a run that succeeds reports of the object that its request names. -/
theorem reports_of_reached (reached : Reached history directory)
    (hschema : schema ∈ ObjectSchema.builtins) (hdry : desired.dryRun = false)
    (hok : (Exchange.run transport (Ensure.run schema.toDeclaration desired) directory).1.result =
      .ok outcome) :
    let ran := Exchange.run transport (Ensure.run schema.toDeclaration desired) directory
    ∃ identity texts, target? schema.toDeclaration desired = some texts ∧
      validate schema.toDeclaration desired = .ok identity ∧
      schema.toDeclaration.Spells identity texts ∧
      ran.2.Kept (requests ((schema, desired) :: history)) ∧
      ran.2.faults.get? schema.toDeclaration.methods.find = none ∧
      Reports schema.toDeclaration desired identity outcome (ran.2.focus schema.name texts) := by
  have hkept := reached.kept.requested schema desired
  obtain ⟨identity, texts, htarget, hvalidate, hvalid, hfault⟩ :=
    valid_of_ok hschema hkept (isOk_iff.2 ⟨outcome, hok⟩)
  have hintact : Intact schema.toDeclaration
      ((requests ((schema, desired) :: history)).holds schema.name texts) texts
      (directory.focus schema.name texts) :=
    ⟨namedBy_focus texts _, fun entry hentry ↦ hkept.sound_focus hschema hentry⟩
  obtain ⟨hrun, hturned⟩ :=
    run_confined hschema (confined_of_target hschema history htarget) hkept
  have hreports := yields_run hschema hvalid hdry (requested_of_asks hschema htarget) hintact
    hvalidate outcome (hrun ▸ hok)
  refine ⟨identity, texts, htarget, hvalidate, hvalid.spells, hturned.kept, ?_, ?_⟩
  · rw [hturned.faults, hfault]
  · rw [hturned.own]
    exact hreports

/-- A search after a run that succeeded finds the object that the run reported, if it takes a call of
its own to create objects of the type. Of an object that was removed as a whole neither has any
field. -/
theorem reported_eq_found (reached : Reached history directory)
    (hschema : schema ∈ ObjectSchema.builtins) (hexplicit : schema.creation = .explicit)
    (hdry : desired.dryRun = false)
    (hok : (Exchange.run transport (Ensure.run schema.toDeclaration desired) directory).1.result =
      .ok outcome) :
    let ran := Exchange.run transport (Ensure.run schema.toDeclaration desired) directory
    ∃ identity, validate schema.toDeclaration desired = .ok identity ∧
      (Exchange.run transport (schema.toDeclaration.find identity) ran.2).1.result =
        .ok outcome.object ∧
      (desired.state = .absent → desired.hasLists schema.toDeclaration = false →
        outcome.object = ∅) := by
  intro ran
  obtain ⟨identity, texts, -, hvalidate, hspells, hkept, hfault, hreports⟩ :=
    reports_of_reached reached hschema hdry hok
  have hcovers := hspells.covers (ObjectSchema.regular_of_mem_builtins hschema)
  have hfound : (Exchange.run transport (schema.toDeclaration.find identity) ran.2).1.result =
      .ok (shown schema.toDeclaration identity (ran.2.focus schema.name texts)) := by
    rcases run_find hschema hkept hspells with ⟨-, hfind, -⟩ | ⟨hlost, -⟩
    · rw [hfind]
    · exact absurd hfault hlost
  obtain ⟨hobject, hwhole⟩ := hreports.object_eq hschema hexplicit hcovers
  exact ⟨identity, hvalidate, hobject ▸ hfound, hwhole⟩

theorem reported_eq_found_disabledUser :
    let ran := Exchange.run transport (Ensure.run ObjectSchema.user.toDeclaration disabledUser)
      (ofRegistry .builtin)
    ∃ outcome, ran.1.result = .ok outcome ∧
      ∃ identity, validate ObjectSchema.user.toDeclaration disabledUser = .ok identity ∧
        (Exchange.run transport (ObjectSchema.user.toDeclaration.find identity) ran.2).1.result =
          .ok outcome.object ∧
        (disabledUser.state = .absent →
          disabledUser.hasLists ObjectSchema.user.toDeclaration = false → outcome.object = ∅) := by
  obtain ⟨outcome, hok⟩ := isOk_iff.1 (by decide +kernel :
    (Exchange.run transport (Ensure.run ObjectSchema.user.toDeclaration disabledUser)
      (ofRegistry .builtin)).1.result.isOk)
  exact ⟨outcome, hok,
    reported_eq_found .empty (by simp [ObjectSchema.builtins]) (by decide +kernel) rfl hok⟩

/-- A run reports a record without fields when the record is gone, unless list values were removed
from it. A record that is removed with its last list values is reported with a field of its own. -/
theorem reported_record_cases (reached : Reached history directory) (hdry : desired.dryRun = false)
    (hok : (Exchange.run transport (Ensure.run ObjectSchema.dnsrecord.toDeclaration desired)
      directory).1.result = .ok outcome) :
    let ran := Exchange.run transport (Ensure.run ObjectSchema.dnsrecord.toDeclaration desired) directory
    ∃ texts, target? ObjectSchema.dnsrecord.toDeclaration desired = some texts ∧
      (outcome.object = ∅ ↔ ran.2.object? "dnsrecord" texts = none ∧
        (outcome.calls = [] ∨ desired.state = .absent ∧
          desired.hasLists ObjectSchema.dnsrecord.toDeclaration = false)) ∧
      (ran.2.object? "dnsrecord" texts = none →
        outcome.object = ∅ ∨ outcome.object = tombstone) := by
  intro ran
  have hschema : ObjectSchema.dnsrecord ∈ ObjectSchema.builtins := by simp [ObjectSchema.builtins]
  obtain ⟨identity, texts, htarget, -, hspells, hkept, -, hreports⟩ :=
    reports_of_reached reached hschema hdry hok
  have hcovers := hspells.covers (ObjectSchema.regular_of_mem_builtins hschema)
  have hsound : ∀ entry ∈ ran.2.focus ObjectSchema.dnsrecord.name texts, entry.Sound
      ObjectSchema.dnsrecord.toDeclaration
      ((requests ((ObjectSchema.dnsrecord, desired) :: history)).holds "dnsrecord" texts) :=
    fun entry hentry ↦ hkept.sound_focus hschema hentry
  refine ⟨texts, htarget, ?_⟩
  rw [object?_eq, Option.map_eq_none_iff]
  refine ⟨hreports.object_eq_empty_iff hschema hsound hcovers, fun hnone ↦ ?_⟩
  exact Reports.object_of_none hschema (hnone ▸ hreports) hcovers

/-- A record that is to have an address, or not to have it. -/
def addressRequest (state : TargetState) : DesiredState where
  identity := .ofList [("dnszoneidnsname", .scalar (.str "example.test.")),
    ("idnsname", .scalar (.str "www"))]
  attributes := .ofList [("arecord", .list [.str "192.0.2.10"])]
  state := state
  dryRun := false

/-- The run that removes the only address of a record. -/
theorem reported_record_cases_lastAddress :
    let first := Exchange.run transport
      (Ensure.run ObjectSchema.dnsrecord.toDeclaration (addressRequest .present)) (ofRegistry .builtin)
    let ran := Exchange.run transport
      (Ensure.run ObjectSchema.dnsrecord.toDeclaration (addressRequest .absent)) first.2
    ran.2.object? "dnsrecord" ["example.test.", "www"] = none ∧
      ∃ outcome, ran.1.result = .ok outcome ∧ outcome.object = tombstone ∧
        ∃ texts, target? ObjectSchema.dnsrecord.toDeclaration (addressRequest .absent) = some texts ∧
          (outcome.object = ∅ ↔ ran.2.object? "dnsrecord" texts = none ∧
            (outcome.calls = [] ∨ (addressRequest .absent).state = .absent ∧
              (addressRequest .absent).hasLists ObjectSchema.dnsrecord.toDeclaration = false)) ∧
          (ran.2.object? "dnsrecord" texts = none →
            outcome.object = ∅ ∨ outcome.object = tombstone) := by
  intro first ran
  have hreported : ran.1.result.toOption.map (·.object) = some tombstone := by decide +kernel
  obtain ⟨outcome, hok⟩ := isOk_iff.1 (by decide +kernel : ran.1.result.isOk)
  rw [hok] at hreported
  have hreached : Reached [(ObjectSchema.dnsrecord, addressRequest .present)] first.2 :=
    .ensure _ .empty (by simp [ObjectSchema.builtins])
  exact ⟨by decide +kernel, outcome, hok, Option.some.inj hreported,
    reported_record_cases hreached rfl hok⟩

end Directory

end DirectoryReconcile
