import AgentOrch.Construction.Kanban.Journal

/-!
# What `done` validates

The binding of a closeout names the card, its approval and the reports of the run.  The card side is
compared with committed rows, the reports are hashed on disk, and a card whose approval asks for a
gate goes through `_validate_gate`.
-/

namespace AgentOrch

open Py Json

namespace Kanban

/-- `BINDING_BLOCK_FIELDS` -/
def bindingBlockFields : List Text :=
  ["night_task_id", "night_id", "card_id", "approval_generation", "approval_hash", "input_hash",
    "profile_hash", "final_candidate_fingerprint", "review_seal_hash", "audit_seal_hash",
    "apply_report_path", "apply_report_hash", "review_report_path", "review_report_hash",
    "audit_report_path", "audit_report_hash"]

/-- `BINDING_EXTRA_FIELDS` -/
def bindingExtraFields : List Text :=
  ["night_request_id", "closeout_task_id", "terminal_done_at", "last_seal_at", "remaining_evidence"]

/-- `BINDING_REPORTS` -/
def bindingReports : List (Text × Text) :=
  [("apply_report_path", "apply_report_hash"), ("review_report_path", "review_report_hash"),
    ("audit_report_path", "audit_report_hash")]

/-- `str(value)` -/
def strValue (rt : Runtime) : Value → Text
  | .str t => t
  | v => reprValue rt v

/-- `_approval_payload` -/
def approvalPayload (rt : Runtime) (db : Db) (card : Card) :
    Except Exc (Option (List (Text × Value))) :=
  let row := db.events.find? fun e =>
    decide (some e.operationId = card.approvalEventId) && decide (e.kind = ("approve" : Text)) &&
      decide (e.result = .accepted)
  match row with
  | none => .ok none
  | some event =>
    if event.payload = .null ∨ event.payload = .text [] then .ok none
    else match event.payload.loads rt with
      | .ok (.obj payload) => .ok (some payload)
      | .ok _ => .ok none
      | .error (.jsonDecodeError _) => .ok none
      | .error e => .error e

section
variable (pf : Platform) (env : Environment)

/-- The reports of the binding are there and have the hashes it names. -/
def checkReports (binding : List (Text × Value)) : List (Text × Text) → Except Stop Unit
  | [] => .ok ()
  | (pathField, hashField) :: rest => do
    let report := strValue pf.toRuntime (getValue pathField binding)
    refuseUnless (getValue hashField binding).truthy "report_hash_missing"
    refuseUnless (env.disk.isFile report) "report_missing"
    let bytes ← raising (env.disk.readBytes report)
    refuseUnless ((getValue hashField binding).eqv (.str (pf.sha256 bytes))) "report_hash_mismatch"
    checkReports binding rest

/-- `_validate_done`, with the binding it passes. -/
def validateDone (db : Db) (card : Card) (payload : List (Text × Value)) :
    Except Stop (List (Text × Value)) := do
  match getValue "binding" payload with
  | .obj binding =>
    refuseUnless ((bindingBlockFields ++ bindingExtraFields).all fun f =>
      decide (f ∈ dictKeys binding)) "binding_incomplete"
    refuseUnless ((getValue "card_id" binding).eqv (.str card.cardId)) "binding_mismatch"
    refuseUnless (card.approvalGeneration ≠ 0 && card.approval.isSome) "card_never_approved"
    refuseUnless ((getValue "approval_generation" binding).eqv (.int card.approvalGeneration))
      "binding_mismatch"
    refuseUnless ((getValue "approval_hash" binding).eqv (Trajectory.optText card.approvalHash))
      "binding_mismatch"
    let supplied := getValue "final_candidate_fingerprint" payload
    let final := getValue "final_candidate_fingerprint" binding
    refuseUnless (textThat (fun t => !t.isEmpty) supplied).isSome "final_candidate_missing"
    refuseUnless final.truthy "final_candidate_missing"
    refuseUnless (supplied.eqv final) "final_candidate_mismatch"
    refuseUnless ((["review_seal_hash", "audit_seal_hash", "input_hash", "profile_hash"] :
      List Text).all fun f => (getValue f binding).truthy) "seal_missing"
    refuseUnless ((getValue "profile_hash" binding).eqv (Trajectory.optText card.profileHash))
      "binding_mismatch"
    checkReports pf env binding bindingReports
    match getValue "remaining_evidence" binding with
    | .arr remaining =>
      refuseUnless remaining.isEmpty "remaining_evidence_incomplete"
      match ← raising (approvalPayload pf.toRuntime db card) with
      | none => .error (.refused "card_never_approved")
      | some approval =>
        if !(getValue "gate_required" approval).truthy then return binding
        else match ← raising (env.gate db card payload binding) with
          | some reason => .error (.refused reason)
          | none => return binding
    | _ => .error (.refused "binding_incomplete")
  | _ => .error (.refused "binding_required")

end

end Kanban

end AgentOrch
