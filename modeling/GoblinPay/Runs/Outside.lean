import GoblinPay.Runs.Footprint

/-!
# What each call touches

The dedupe markers, the rate windows and the snapshot belong to the relay service and to the directory: `Ingests` and
`Dispatches` say what these do, and no other call touches them or the relays (`Call.silent`). What a call other than a rail can
write to the tables is in `Call.mayWrite`.
-/

namespace GoblinPay

open Async

/-! ## The relay service -/

section

variable {W : Type} (U : Upstream W) (S : ∀ {γ : Type}, Eff γ → Prop)

/-- `S` admits what a visit of the event does. -/
structure Ingests (event : NostrEvent) : Prop where
  outside : ∀ {γ : Type} (e : Eff γ), e.Outside → S e
  wrap : S (.isSeen event.id) ∧ S (.mark event.id)
  rumor : ∀ keys u, Wrap.unwrapGiftWrap U keys event = .ok u → S (.isSeen u.rumor.id) ∧ S (.mark u.rumor.id)
  slate : ∀ slateId, S (.mark ("slate:" ++ slateId))
  allow : ∀ key limit window cap, S (.allow key limit window cap)
  snapshot : S .snapshot

/-- `S` admits what the dispatch of stored replies does. -/
structure Dispatches : Prop where
  deliver : ∀ reply, S (.deliver reply)
  replied : ∀ slateId, S (.sql (.markReplied slateId))
  unreplied : S (.sql .selectUnreplied)
  snapshot : S .snapshot

variable {U S}

/-- Resolving a recipient reads the snapshot, if the recipient is not the master. -/
theorem only_resolve (snapshot : S .snapshot) (master : Secret) (recipientHex : String) :
    (Directory.resolve U master recipientHex).Only S := by
  unfold Directory.resolve
  split
  · exact trivial
  · exact Prog.Only.bind (Prog.Only.call snapshot) fun _ => trivial

namespace Ingests

variable {event : NostrEvent} (D : Ingests U S event)

include D

/-- A dropped wrap is marked under both of its ids. -/
theorem drop {keys : Secret} {u : Unwrapped} (hu : Wrap.unwrapGiftWrap U keys event = .ok u) (reason : String) :
    (Ingest.drop event.id u.rumor.id reason).Only S := by
  refine Prog.Only.bind (Prog.Only.call D.wrap.2) fun _ => ?_
  exact Prog.Only.bind (Prog.Only.call (D.rumor _ _ hu).2) fun _ => trivial

/-- An accepted wrap is marked under its slate, too. A failed one is left to be delivered again. -/
theorem handOff (cfg : Config) {keys : Secret} {u : Unwrapped} (hu : Wrap.unwrapGiftWrap U keys event = .ok u) :
    (Ingest.handOff U cfg event.id keys u).Only S := by
  refine Prog.Only.bind ((footprint_receive U cfg _ _).silent.mono fun e he => D.outside e he.outside) fun r => ?_
  cases r with
  | ok payment =>
    refine Prog.Only.bind (Prog.Only.call D.wrap.2) fun _ => Prog.Only.bind (Prog.Only.call (D.rumor _ _ hu).2) fun _ => ?_
    exact Prog.Only.bind (Prog.Only.call (D.slate _)) fun _ => trivial
  | error e =>
    cases e with
    | duplicate => exact D.drop hu _
    | rejected m => exact D.drop hu _
    | failed m => exact trivial

/-- One wrap, from the outer checks to the hand-off. -/
theorem handleWrap (cfg : Config) (master : Secret) : (Ingest.handleWrap U cfg master event).Only S := by
  have refuse : ∀ reason, (Ingest.mark event.id >>= fun _ => .ret (IngestOutcome.dropped reason) : Io IngestOutcome).Only S :=
    fun _ => Prog.Only.bind (Prog.Only.call D.wrap.2) fun _ => trivial
  unfold Ingest.handleWrap
  split
  · exact trivial
  split
  · exact refuse _
  refine Prog.Only.bind (Prog.Only.call D.wrap.1) fun seen => ?_
  split
  · exact trivial
  refine Prog.Only.bind (Prog.Only.call (D.allow _ _ _ _)) fun ok => ?_
  split
  swap
  · exact trivial
  unfold Ingest.openWrap
  refine Prog.Only.bind ?_ fun keys => ?_
  · unfold Ingest.recipientKeys
    split
    · exact only_resolve D.snapshot master _
    · exact trivial
  cases keys with
  | none => exact refuse _
  | some keys =>
    cases hu : Wrap.unwrapGiftWrap U keys event with
    | error e =>
      simp only [hu]
      exact refuse _
    | ok u =>
      simp only [hu]
      unfold Ingest.screen
      refine Prog.Only.bind (Prog.Only.call (D.rumor _ _ hu).1) fun duplicate => ?_
      split
      · exact D.drop hu _
      · refine Prog.Only.bind (Prog.Only.call (D.allow _ _ _ _)) fun ok => ?_
        split
        · exact D.handOff cfg hu
        · exact trivial

end Ingests

namespace Dispatches

variable (D : Dispatches S)

include D

/-- A reply is marked as sent where its delivery was acknowledged. -/
theorem reply (slateId : String) (pending : PendingReply) : (Service.reply U slateId pending).Only S := by
  refine Prog.Only.bind (Prog.Only.call (D.deliver _)) fun sent => ?_
  cases sent with
  | true => exact Prog.Only.bind (Prog.Only.call (D.replied slateId)) fun _ => trivial
  | false => exact trivial

/-- Every stored reply with a recipient that still resolves is sent. -/
theorem redispatchAll (master : Secret) (pending : List UnrepliedPayment) : (Service.redispatchAll U master pending).Only S := by
  induction pending with
  | nil => exact trivial
  | cons p rest ih =>
    refine Prog.Only.bind ?_ fun _ => ih
    unfold Service.redispatch
    split
    · exact trivial
    · refine Prog.Only.bind (only_resolve D.snapshot master p.recipientHex) fun keys => ?_
      cases keys with
      | none => exact trivial
      | some keys => exact D.reply _ _

/-- The start reads what is unreplied and sends it. -/
theorem reconcile (master : Secret) : (Service.reconcile U master).Only S := by
  refine Prog.Only.bind (Prog.Only.bind (Prog.Only.call D.unreplied) fun _ => trivial) fun _ => ?_
  exact D.redispatchAll master _

end Dispatches

end

/-! ## The directory -/

section

variable {P : Write → Prop} {W : Type} (U : Upstream W)

namespace Directory

theorem quiet_resolve (master : Secret) (recipient : String) : Prog.Quiet (resolve U master recipient) :=
  only_resolve rfl master recipient

/-- The snapshot is built from two reads. -/
theorem quiet_buildSnapshot (sk : Secret) (mode : MatchMode) (overlap : Int64) :
    Prog.Quiet (buildSnapshot U sk mode overlap) := by
  refine Prog.Only.bind (quiet_sql rfl) fun rows => Prog.Only.bind (quiet_sql rfl) fun endpubs => ?_
  cases endpubs <;> exact trivial

theorem quiet_refreshSnapshot (cfg : Config) (sk : Secret) : Prog.Quiet (refreshSnapshot U cfg sk) :=
  Prog.Only.bind (quiet_buildSnapshot U _ _ _) fun _ => Prog.Only.call rfl

/-- A maintenance tick rotates what is due. -/
theorem writes_maintenance (cfg : Config) (sk : Secret) (hepoch : ∀ u e, P (.epoch u e))
    (hassign : ∀ u e, P (.assign u e (Derive.endpubPubkeyHex U sk u e))) : Prog.Writes P (maintenance U cfg sk) := by
  have refresh : Prog.Writes P (refreshSnapshot U cfg sk) := (quiet_refreshSnapshot U cfg sk).writes
  unfold maintenance
  split
  · refine Prog.Writes.bind ?_ fun _ => refresh
    exact (Endpub.footprint_rotateDue U sk _ hepoch hassign).discard.writes
  · exact refresh

end Directory

/-- Finding the keys of a wrap's recipient reads only. -/
theorem Ingest.quiet_recipientKeys (master : Secret) (event : NostrEvent) : Prog.Quiet (Ingest.recipientKeys U master event) := by
  unfold Ingest.recipientKeys
  split
  · exact Directory.quiet_resolve U master _
  · exact trivial

/-- A start writes that stored replies were sent. -/
theorem Service.writes_boot (cfg : Config) (master : Secret) (h : ∀ t, P (.reply t)) : Prog.Writes P (Service.boot U cfg master) := by
  have restart : Prog.Quiet (Prog.call Eff.restart) := Prog.Only.call rfl
  have dispatches : Dispatches fun e => ∀ wr, e.write = some wr → P wr :=
    { deliver := fun _ _ => nofun
      replied := fun slateId wr hwr => by
        cases hwr
        exact h slateId
      unreplied := fun _ => nofun
      snapshot := fun _ => nofun }
  exact Prog.Writes.bind restart.writes fun _ => Prog.Writes.bind (Directory.quiet_refreshSnapshot U cfg master).writes fun _ =>
    dispatches.reconcile master

/-! ## The calls -/

/-- The calls of the relay service and of the directory. -/
def Call.OfRelays : Call → Prop
  | .handleEvent .. | .boot .. | .maintenance .. => True
  | _ => False

/-- The calls through which payments come in. -/
def Call.IsRail : Call → Prop
  | .receive .. | .settle .. | .foreignReceive .. | .foreignFinalize .. | .manualSlatepack ..
  | .handleEvent .. => True
  | _ => False

/-- What a call other than a rail can write. -/
def Call.mayWrite : Call → Write → Prop
  | .createInvoice cfg _ _, wr =>
    (∃ params sk id token, cfg.keys = some sk ∧
      wr = .create (Invoice.row U params sk (U.xonlyHex sk) cfg.matchMode id token)) ∨ ∃ i sid, wr = .arm i sid
  | .confirmPoll .., wr => (∃ t c, wr = .deepen t c) ∨ (∃ i, wr = .confirm i) ∨ ∃ p, wr = .enqueue p
  | .expirySweep, wr => ∃ i, wr = .expire i
  | .maintenance _ master, wr | .rotateUser master _, wr =>
    (∃ u e, wr = .epoch u e) ∨ ∃ u e, wr = .assign u e (Derive.endpubPubkeyHex U master u e)
  | .createUser master _ _, wr =>
    (∃ u, wr = .user u) ∨ ∃ u e, wr = .assign u e (Derive.endpubPubkeyHex U master u e)
  | .setRotateInterval id _, wr => wr = .interval id
  | .boot .., wr => ∃ t, wr = .reply t
  | _, _ => False

/-- What a call touches that is neither of the relay service and the directory nor a rail. -/
theorem Call.footprint {c : Call} (hrelays : ¬ c.OfRelays) (hrail : ¬ c.IsRail) : Prog.Footprint (c.mayWrite U) (code U c) := by
  cases c with
  | createInvoice cfg ttl body =>
    exact (Invoices.footprint_createInvoice U cfg ttl body
      (fun _ _ _ _ hkeys => Or.inl ⟨_, _, _, _, hkeys, rfl⟩) fun _ _ => Or.inr ⟨_, _, rfl⟩).done
  | getInvoice id => exact (Invoices.footprint_getInvoice id).done
  | payStatus token => exact (Checkout.footprint_payStatus token).done
  | listInvoices limit => exact (Invoice.footprint_list limit).done
  | receive | settle | foreignReceive | foreignFinalize | manualSlatepack | handleEvent => exact absurd trivial hrail
  | boot | maintenance => exact absurd trivial hrelays
  | createUser master id interval =>
    exact (Endpub.footprint_createUser U master id interval (fun _ => Or.inl ⟨_, rfl⟩)
      fun _ _ => Or.inr ⟨_, _, rfl⟩).done
  | rotateUser master id =>
    exact (Endpub.footprint_rotate U master id (fun _ => Or.inl ⟨_, _, rfl⟩) fun _ => Or.inr ⟨_, _, rfl⟩).done
  | setRotateInterval id interval =>
    have update : Prog.Footprint (Call.mayWrite U (.setRotateInterval id interval)) (sql (.setRotateInterval id interval)).run :=
      footprint_write rfl rfl
    exact update.done
  | listUsers => exact Endpub.footprint_listWithBalances.done
  | confirmPoll policy passes =>
    exact (Payments.footprint_confirmPoll policy passes (fun _ _ => Or.inl ⟨_, _, rfl⟩)
      (fun _ => Or.inr (Or.inl ⟨_, rfl⟩)) fun _ => Or.inr (Or.inr ⟨_, rfl⟩)).done
  | expirySweep => exact (Foreign.footprint_expirySweep U fun i => ⟨i, rfl⟩).done
  | elapse secs =>
    have passes : Prog.Footprint (Call.mayWrite U (.elapse secs)) (Prog.call (Eff.elapse secs)) := footprint_call trivial rfl
    exact passes.done

/-- Every call other than these leaves the memory of the process alone. -/
theorem Call.silent {c : Call} (h : ¬ c.OfRelays) : (code U c).Only Eff.Silent := by
  by_cases hrail : c.IsRail
  swap
  · exact (Call.footprint U h hrail).silent
  cases c with
  | receive r payer rc memo mode wh =>
    have footprint : Prog.Footprint (fun _ => True) (Record.persistAndMatch r payer rc memo mode wh) :=
      Record.footprint_persistAndMatch _ _ _ _ _ _ trivial (fun _ => trivial) (fun _ => trivial) trivial fun _ => trivial
    exact Prog.Only.bind footprint.silent fun _ => trivial
  | settle f wh =>
    have footprint : Prog.Footprint (fun _ => True) (Foreign.settleFinalized f wh) :=
      Foreign.footprint_settleFinalized _ _ (fun _ => trivial) (fun _ => trivial) fun _ => trivial
    exact footprint.done.silent
  | foreignReceive cfg slate => exact (Foreign.footprint_receiveTx U cfg slate).done.silent
  | foreignFinalize cfg slate => exact (Foreign.footprint_finalizeTx cfg slate).done.silent
  | manualSlatepack cfg token armor => exact (Checkout.footprint_manualSlatepack U cfg token armor).done.silent
  | handleEvent => exact absurd trivial h
  | _ => exact hrail.elim

/-- Every call other than a rail keeps to its footprint. -/
theorem Call.writes {c : Call} (h : ¬ c.IsRail) : Prog.Writes (c.mayWrite U) (code U c) := by
  by_cases hrelays : c.OfRelays
  swap
  · exact (Call.footprint U hrelays h).writes
  cases c with
  | boot cfg master => exact (Service.writes_boot U cfg master fun t => ⟨t, rfl⟩).bind fun _ => trivial
  | maintenance cfg master =>
    exact (Directory.writes_maintenance U cfg master (fun _ _ => Or.inl ⟨_, _, rfl⟩) fun _ _ => Or.inr ⟨_, _, rfl⟩).bind fun _ => trivial
  | handleEvent => exact absurd trivial h
  | _ => exact hrelays.elim

end

end GoblinPay
