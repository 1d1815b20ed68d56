import Garive.Ledger.History

/-!
# Opaque facts and the projection

Payload validation keeps a fact *opaque* when its kind is not a runtime kind or its schema version is
not admitted, so that a reader of a later version can make sense of it. The projection does not ask:
it dispatches on the kind alone. An opaque fact is therefore without influence only when its kind
has none, and a `turn.started` fact of an unknown version opens a turn like one of version 1.
-/

namespace Garive.SessionProjection

variable {lib : Externals} {p : SessionProjection} {fact : FactDraft}

/-- **When a fact is without influence.** A fact the projection accepts, opaque or not, leaves every
field of it as it was exactly when the fact is inert: its kind is not named by the projection or only
checked by it, or it is an input that admits no new delegation result, or a skip that ends where its
schedule already stands. -/
theorem unchanged_iff_inert (haccepted : ∃ p', p.apply lib fact = .ok p') :
    p.apply lib fact = .ok p ↔ p.inert lib fact = true := by
  obtain ⟨p', happly⟩ := haccepted
  rw [happly, Except.ok.injEq]
  exact (apply_spec happly).2.2

/-! ## A turn opened by an opaque fact -/

/-- The payload of a start. -/
def opaqueStartPayload : Value :=
  json [("agent_instance_id", .string "agent-1"), ("kind", .string "start"),
    ("snapshot_digest", .string "snapshot-1")]

theorem readable_opaqueStartPayload : opaqueStartPayload.Readable :=
  Value.plain_json (by simp)

/-- The turn it names. -/
def opaqueTurn : TurnId := LedgerState.runTurn

/-- A start with a schema version that is not admitted. -/
def opaqueStart : FactDraft :=
  { referenceFact ⟨"fact-started", by simp⟩ .turnStarted opaqueStartPayload with
    turnId := some opaqueTurn, schemaVersion := 2 }

theorem validateRuntimeFact_opaqueStart :
    validateRuntimeFact reference opaqueStart = .ok .opaqueFact := rfl

theorem validate_opaqueStart : opaqueStart.validate reference = .ok () :=
  validate_reference (by decide) readable_opaqueStartPayload.exact rfl rfl

/-- The opened session with the turn. -/
def opaquelyStarted : SessionProjection where
  opened := true
  turns := (∅ : Map TurnId TurnState).insert opaqueTurn .open
  turnAgents := (∅ : Map TurnId (String × String)).insert opaqueTurn ("agent-1", "snapshot-1")
  turnsStartedInCommit := (∅ : SetOf TurnId).insert opaqueTurn

theorem apply_opaqueStart :
    apply reference { opened := true } opaqueStart = .ok opaquelyStarted := by
  rw [apply_eq_ok_iff]
  refine ⟨validate_opaqueStart, .inr ⟨by decide, rfl, rfl, .inl ⟨.turnStarted, rfl, ?_⟩⟩⟩
  have hturn : opaqueStart.turnId = some opaqueTurn := rfl
  have hread : reference.fromStr opaqueStart.payload.json = some opaqueStartPayload :=
    fromStr_referencePayload readable_opaqueStartPayload
  change startTurn reference { opened := true } opaqueStart = .ok opaquelyStarted
  simp [startTurn, hturn, required, payloadOf, hread, opaqueStartPayload, json, textOf,
    startTurnValid, opaquelyStarted]

open LedgerState

theorem follows_opaqueStart :
    Follows reference [[openingFact]] { opened := true } [opaqueStart] opaquelyStarted where
  nonempty := List.cons_ne_nil _ _
  valid := by
    rw [List.forall_mem_singleton]
    exact validate_opaqueStart
  admitted := by
    rw [List.forall_mem_singleton]
    exact ⟨.opaqueFact, validateRuntimeFact_opaqueStart⟩
  nodup := by simp [openingFact, opaqueStart, referenceFact]
  accepted := by
    rw [applyAll, show ({ opened := true } : SessionProjection).beginCommit = { opened := true } from rfl,
      apply_opaqueStart]
    rfl
  boundary := by simp [validateCommitBoundary, opaquelyStarted, Map.any]
  fits := by decide

/-- An opaque fact that opens a turn. The ledger commits it: the session had no such turn before and
has it open afterwards. -/
theorem opaque_start_opens_turn : ∃ (before after : LedgerState) (session : SessionLedger)
    (p' : SessionProjection), Reachable reference before ∧
      before.sessions[runSession]? = some session ∧
      opaqueStart.kind ≠ .known .sessionOpened ∧ opaqueStart.kind ≠ .known .sessionClosed ∧
      validateRuntimeFact reference opaqueStart = .ok .opaqueFact ∧
      session.projection.apply reference opaqueStart = .ok p' ∧
      session.projection.turns[opaqueTurn]? = none ∧ p'.turns[opaqueTurn]? = some .open ∧
      before.commit reference runSession 1 [opaqueStart] = (.ok ⟨.committed, 2, [2]⟩, after) := by
  obtain ⟨before, hbefore⟩ := exists_holds_opening
  obtain ⟨after, hcommit, -⟩ := hbefore.commit follows_opaqueStart
  refine ⟨before, after, _, opaquelyStarted, hbefore.reachable,
    hbefore.get?_sessions (List.cons_ne_nil _ _), by decide, by decide,
    validateRuntimeFact_opaqueStart, ?_, ?_, ?_, hcommit⟩
  · rw [hbefore.projection_eq]
    exact apply_opaqueStart
  · rw [hbefore.projection_eq]
    exact Map.get?_empty _
  · exact Map.get?_insert_self ..

/-- The start, in the terms of the characterization. -/
theorem opaque_start_not_inert :
    (∃ p', apply reference { opened := true } opaqueStart = .ok p') ∧
      ¬apply reference { opened := true } opaqueStart = .ok { opened := true } := by
  refine ⟨⟨_, apply_opaqueStart⟩, ?_⟩
  rw [unchanged_iff_inert ⟨_, apply_opaqueStart⟩]
  decide

end Garive.SessionProjection
