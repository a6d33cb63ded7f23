import GoblinPay.Async.Process
import GoblinPay.Runs.Identities
import GoblinPay.Sample

/-!
# Replies across a restart

The keys of a derived identity are rebuilt from the database at every process start, and a
stored reply is dispatched again only when its recipient is among them. What is rebuilt is
always the right key; whether it is rebuilt depends on what the snapshot query selects.

The start is `Service.boot`, the snapshot and then `reconcile`. The maintenance task is spawned beside the service
and rebuilds the snapshot on its own ticks; it is no part of the start, and none of its operations are in `booted`.
-/

namespace GoblinPay

open Async Sql

/-! ## The boot -/

section

variable {W : Type} (U : Upstream W) (cfg : Config) (sk : Secret)

/-- The reads the start depends on; every other failure of it is caught. -/
def Eff.IsBootRead {β : Type} : Eff β → Prop
  | .sql (.selectDerivedInvoices _) | .sql (.watchedPubkeys _) | .sql .selectUnreplied => True
  | _ => False

/-- The contract of a start that nobody interferes with and whose reads succeed. -/
def booting : Discipline (handler U) Unit Unit :=
  Discipline.alone (handler U) (fun _ => True) (fun _ _ _ _ => True)
    (fun _ e x _ => e.IsBootRead → x.fault = none) fun _ _ _ => ()

/-- The stored replies, as `unreplied` lists them. -/
def unrepliedOf (db : Db) : List UnrepliedPayment :=
  ((db.payment.select Payment.unreplied).filterMap fun p => do
    let payer ← p.payer
    let s2 ← p.s2Armor
    some (p.slateId, payer, s2, p.recipient)).map WalletReceiver.unrepliedPayment

/-- The dispatch of one stored reply. -/
def dispatchOf (map : Snapshot) (pending : UnrepliedPayment) : Option Dispatch := do
  let payer ← U.publicKeyFromHex pending.payerHex
  let keys ← heldKeys U sk map pending.recipientHex
  let reply := Ingest.buildReply keys payer pending.s2Armor
  some ⟨U.xonlyHex reply.sender, reply.payer, reply.content, reply.tags⟩

variable {U cfg sk} {g : Unit} {s : World W} {α β : Type}

/-- One operation of a start. -/
theorem boot_step {Q : α → Unit → World W → Prop} {e : Eff β} {k : β → Io α}
    (hk : ∀ x, (e.IsBootRead → x.fault = none) →
      Meets (booting U) () Q (k (act U x s e).1) () (act U x s e).2) :
    Meets (booting U) () Q (.await e k) g s :=
  Meets.step (K := fun s' => s' = s) rfl (fun _ _ h _ h' => h.trans h') (fun _ _ _ => trivial)
    fun x s' _ hs hx => by
      subst hs
      exact hk x hx

/-- The end of a start, or of a part of it. -/
theorem boot_ret {Q : α → Unit → World W → Prop} {a : α} (hQ : Q a () s) :
    Meets (booting U) () Q (.ret a) g s := by
  intro s' hs _
  obtain rfl : s' = s := hs
  exact hQ

/-- The parts of a start change the outbox and, at one point, the snapshot. -/
structure Sends (s s' : World W) (sent : List Dispatch) : Prop where
  outbox : s'.outbox = s.outbox ++ sent
  snapshot : s'.memory.snapshot = s.memory.snapshot

theorem resolve_held (recipient : String) :
    Meets (booting U) () (fun keys _ s' => s' = s ∧ keys = heldKeys U sk s.memory.snapshot recipient)
      (Directory.resolve U sk recipient) g s := by
  unfold Directory.resolve heldKeys
  split
  · exact boot_ret ⟨rfl, rfl⟩
  · exact boot_step fun _ _ => boot_ret ⟨rfl, rfl⟩

theorem reply_sends (slateId : String) (pending : PendingReply) :
    Meets (booting U) ()
      (fun _ _ s' => Sends s s' [⟨U.xonlyHex pending.sender, pending.payer, pending.content, pending.tags⟩])
      (Service.reply U slateId pending) g s := by
  refine boot_step fun x _ => ?_
  have keeps : ∀ (y : Answer) (w : World W) (t : String),
      (act U y w (.sql (.markReplied t))).2.outbox = w.outbox ∧
      (act U y w (.sql (.markReplied t))).2.memory = w.memory := by
    intro y w t
    unfold act
    dsimp only
    split <;> exact ⟨rfl, rfl⟩
  rcases hx : x.fault with _ | m
  · have hsent : (act U x s (.deliver ⟨U.xonlyHex pending.sender, pending.payer, pending.content, pending.tags⟩)).1
        = true := by simp [act, hx]
    rw [hsent]
    refine boot_step fun y _ => boot_ret ⟨?_, ?_⟩
    · rw [(keeps y _ _).1]
      rfl
    · rw [(keeps y _ _).2]
      rfl
  · have hsent : (act U x s (.deliver ⟨U.xonlyHex pending.sender, pending.payer, pending.content, pending.tags⟩)).1
        = false := by simp [act, hx]
    rw [hsent]
    exact boot_ret ⟨rfl, rfl⟩

theorem redispatch_sends (pending : UnrepliedPayment) :
    Meets (booting U) () (fun _ _ s' => Sends s s' (dispatchOf U sk s.memory.snapshot pending).toList)
      (Service.redispatch U sk pending) g s := by
  unfold Service.redispatch
  split
  · rename_i hpayer
    exact boot_ret ⟨by simp [dispatchOf, hpayer], rfl⟩
  · rename_i payer hpayer
    refine Meets.andThen (resolve_held pending.recipientHex) ?_
    rintro keys g s' - ⟨rfl, rfl⟩
    cases hkeys : heldKeys U sk s'.memory.snapshot pending.recipientHex with
    | none => exact boot_ret ⟨by simp [dispatchOf, hpayer, hkeys], rfl⟩
    | some keys =>
      have hd : dispatchOf U sk s'.memory.snapshot pending =
          some ⟨U.xonlyHex keys, payer, Protocol.buildPaymentContent pending.s2Armor,
            Protocol.buildRumorTags none ++ [["p", payer]]⟩ := by
        simp [dispatchOf, hpayer, hkeys, Ingest.buildReply]
      rw [hd]
      exact reply_sends pending.slateId (Ingest.buildReply keys payer pending.s2Armor)

theorem redispatchAll_sends (pending : List UnrepliedPayment) :
    Meets (booting U) () (fun _ _ s' => Sends s s' (pending.filterMap (dispatchOf U sk s.memory.snapshot)))
      (Service.redispatchAll U sk pending) g s := by
  induction pending generalizing g s with
  | nil => exact boot_ret ⟨by simp, rfl⟩
  | cons p pending ih =>
    refine Meets.andThen (redispatch_sends p) fun _ g s' _ h => ?_
    refine ih.mono fun _ _ s'' _ h' => ⟨?_, h'.snapshot.trans h.snapshot⟩
    rw [h'.outbox, h.outbox, h.snapshot, List.filterMap_cons]
    cases dispatchOf U sk s.memory.snapshot p <;> simp

/-- A read of the start answers what the engine computes. -/
theorem boot_read {Q : α → Unit → World W → Prop} {q : Stmt β} {f : Except SqlxError β → Io α} (hq : q.IsRead)
    (hboot : (Eff.sql q).IsBootRead)
    (hf : ∀ x, Meets (booting U) () Q (f (q.exec s.now x s.db).1) () s) :
    Meets (booting U) () Q ((sql q).run >>= f) g s := by
  refine boot_step (k := f) fun x hx => ?_
  have hfault := hx hboot
  have hans : (act U x s (.sql q)).1 = (q.exec s.now x.choice s.db).1 := by simp only [act, hfault]
  have hst : (act U x s (.sql q)).2 = s := by
    simp only [act, hfault]
    exact World.exec_read hq s x.choice
  rw [hans, hst]
  exact hf x.choice

/-- A start dispatches every stored reply whose payer parses and whose recipient has keys in
the snapshot it built. -/
theorem boot_sends :
    Meets (booting U) ()
      (fun _ _ s' => s'.outbox = s.outbox ++ (unrepliedOf s.db).filterMap (dispatchOf U sk (snapshotOf U cfg sk s.db)))
      (Service.boot U cfg sk) g s := by
  refine boot_step (k := fun _ => Directory.refreshSnapshot U cfg sk >>= fun _ => Service.reconcile U sk) fun _ _ => ?_
  refine Meets.andThen (I := fun _ _ s' => s'.outbox = s.outbox ∧ s'.db = s.db ∧
    s'.memory.snapshot = snapshotOf U cfg sk s.db) ?_ fun _ g s' _ h => ?_
  · refine Meets.andThen (I := fun map _ s' => s' = s.restart ∧ map = snapshotOf U cfg sk s.db) ?_ ?_
    · refine boot_read (q := .selectDerivedInvoices cfg.matchMode) trivial trivial fun _ => ?_
      refine boot_read (q := .watchedPubkeys (max cfg.endpubOverlapEpochs 0)) trivial trivial fun _ => ?_
      exact boot_ret ⟨rfl, rfl⟩
    · rintro map g s' - ⟨rfl, rfl⟩
      exact boot_step fun _ _ => boot_ret ⟨rfl, rfl, rfl⟩
  · obtain ⟨houtbox, hdb, hsnapshot⟩ := h
    unfold Service.reconcile
    refine Meets.andThen (I := fun pending _ s'' => s'' = s' ∧ pending = unrepliedOf s'.db) ?_ ?_
    · refine boot_read (q := .selectUnreplied) trivial trivial fun _ => ?_
      exact boot_ret ⟨rfl, rfl⟩
    · rintro pending g s'' - ⟨rfl, rfl⟩
      refine (redispatchAll_sends _).mono fun _ _ last _ h => ?_
      rw [h.outbox, houtbox, hsnapshot, hdb]

/-! ## Runs -/

variable (U cfg sk)

/-- A payment received over Nostr whose reply is still to be sent. -/
structure Unreplied (w : World W) (p : Payment) (payer s2Armor recipient : String) : Prop where
  row : p ∈ w.db.payment.rows
  status : p.status = .received
  payer : ∃ payerHex, p.payer = some payerHex ∧ U.publicKeyFromHex payerHex = some payer
  s2Armor : p.s2Armor = some s2Armor
  recipient : p.recipient = some recipient

/-- Between the two states, the reply `s2Armor` went to the payer from the identity `recipient`. -/
def Redispatched (w w' : World W) (payer s2Armor recipient : String) : Prop :=
  ∃ d ∈ w'.outbox.drop w.outbox.length, d.sender = recipient ∧ d.payer = payer ∧
    d.content = Protocol.buildPaymentContent s2Armor

/-- The state in which a start ends that is given the inputs `xs`. -/
def booted (w : World W) (xs : List Answer) : World W := ((Service.boot U cfg sk).exec (handler U) xs w).2

/-- The start ran to its end, and its reads succeeded. -/
structure Boots (w : World W) (xs : List Answer) : Prop where
  finished : ((Service.boot U cfg sk).exec (handler U) xs w).1 = .ret ()
  reads : ∀ ev ∈ (Service.boot U cfg sk).events (handler U) () xs w, ev.eff.IsBootRead → ev.input.fault = none

/-- The next start sends every reply that is still to be sent. -/
def RepliesRecovered (w : World W) (xs : List Answer) : Prop :=
  ∀ p payer s2Armor recipient, Unreplied U w p payer s2Armor recipient →
    Redispatched w (booted U cfg sk w xs) payer s2Armor recipient

variable {U cfg sk}

theorem booted_outbox {w : World W} {xs : List Answer} (hb : Boots U cfg sk w xs) :
    (booted U cfg sk w xs).outbox =
      w.outbox ++ (unrepliedOf w.db).filterMap (dispatchOf U sk (snapshotOf U cfg sk w.db)) := by
  obtain ⟨-, hm⟩ := Meets.exec (D := booting U) (h := ()) (p := Service.boot U cfg sk) (g := ()) (s := w)
    (fun _ _ _ => trivial) boot_sends trivial hb.reads
  rw [hb.finished] at hm
  exact hm _ rfl trivial

/-- In every run of a server with the identity `sk`, stopped anywhere, the next start sends a
reply that is still to be sent if and only if it holds the identity that received the payment. -/
theorem redispatched_iff (U : Upstream W) (hs : Derive.Samples U) (sk : Secret) (wallet : W) (now : Time)
    (ms : Run) (hid : ∀ h ∈ Pool.heads (after U (World.fresh wallet now) ms),
      ∀ k, h.call.identity = some k → k = sk)
    (cfg : Config) (xs : List Answer) (hb : Boots U cfg sk (after U (World.fresh wallet now) ms).state xs)
    {p : Payment} {payer s2Armor recipient : String}
    (hp : Unreplied U (after U (World.fresh wallet now) ms).state p payer s2Armor recipient) :
    Redispatched (after U (World.fresh wallet now) ms).state
        (booted U cfg sk (after U (World.fresh wallet now) ms).state xs) payer s2Armor recipient ↔
      Holds U cfg sk (after U (World.fresh wallet now) ms).state.db recipient := by
  have hk : Keyed U sk (after U (World.fresh wallet now) ms).state.db := keyed_run wallet now ms hid
  generalize (after U (World.fresh wallet now) ms).state = w at hb hp hk ⊢
  have sent : ∀ d, d ∈ (booted U cfg sk w xs).outbox.drop w.outbox.length ↔
      ∃ pending ∈ unrepliedOf w.db, dispatchOf U sk (snapshotOf U cfg sk w.db) pending = some d := by
    intro d
    rw [booted_outbox hb, List.drop_left, List.mem_filterMap]
  constructor
  · rintro ⟨d, hd, hsender, -, -⟩
    obtain ⟨pending, -, hpending⟩ := (sent d).1 hd
    simp only [dispatchOf, Option.bind_eq_bind, Option.bind_eq_some_iff] at hpending
    obtain ⟨_, -, keys, hkeys, hreply⟩ := hpending
    -- whoever's reply it was, it was signed by the keys of its recipient
    obtain ⟨hhex, hholds⟩ := heldKeys_eq_some hk hkeys
    cases hreply
    rw [show recipient = pending.recipientHex from hsender.symm.trans hhex]
    exact hholds
  · intro hholds
    obtain ⟨keys, hkeys⟩ := heldKeys_of_holds hs hholds
    obtain ⟨hhex, -⟩ := heldKeys_eq_some hk hkeys
    obtain ⟨payerHex, hpayerHex, hpayer⟩ := hp.payer
    have listed : (⟨p.slateId, payerHex, s2Armor, recipient⟩ : UnrepliedPayment) ∈ unrepliedOf w.db := by
      refine List.mem_map.2 ⟨(p.slateId, payerHex, s2Armor, p.recipient), ?_, ?_⟩
      · refine List.mem_filterMap.2 ⟨p, List.mem_filter.2 ⟨hp.row, ?_⟩, ?_⟩
        · simp [Payment.unreplied, hp.status, hp.s2Armor, hpayerHex]
        · simp [hpayerHex, hp.s2Armor]
      · simp [WalletReceiver.unrepliedPayment, hp.recipient]
    refine ⟨⟨U.xonlyHex keys, payer, Protocol.buildPaymentContent s2Armor,
      Protocol.buildRumorTags none ++ [["p", payer]]⟩, (sent _).2 ⟨_, listed, ?_⟩, hhex, rfl, rfl⟩
    simp [dispatchOf, hpayer, hkeys, Ingest.buildReply]

end

/-! ## Two stops -/

/-- A wallet with a payer's slate in circulation. -/
def payerWallet : Sample.Wallet :=
  { Sample.wallet with packs := [("BEGINSLATEPACK.ENDSLATEPACK.", ⟨"t", .standard1, 100, none⟩)] }

/-- An invoice for exactly 100 is open under the derived key `mi`; a payment of 100 arrives over
the relays for `recipient`, and the process stops after `n` operations on it. -/
def stopRun (recipient : String) (n : Nat) : Run :=
  [.start (.createInvoice Sample.config 900 { amountGrin := some 100, matchMode := some "derived" }),
   .run 0 { text := "i" }, .run 0 { text := "tok" }, .run 0 {}, .run 0 {}, .run 0 {},
   .start (.maintenance Sample.config [109]), .run 1 {}, .run 1 {}, .run 1 {},
   .start (.handleEvent Sample.config [109]
     ⟨"wrap", 1059, "payer", "BEGINSLATEPACK.ENDSLATEPACK.", [["p", recipient]], 0, ""⟩)] ++
  List.replicate n (.run 2 {})

def stopped (recipient : String) (n : Nat) : World Sample.Wallet :=
  (after Sample.upstream (World.fresh payerWallet 1000) (stopRun recipient n)).state

section

variable {recipient : String} {n : Nat}

theorem stopped_unreplied {p : Payment} (hp : (stopped recipient n).db.payment.get "t" = some p)
    (h : p.status = .received ∧ p.payer = some "payer" ∧ p.s2Armor = some "S2:t" ∧ p.recipient = some recipient) :
    Unreplied Sample.upstream (stopped recipient n) p "payer" "S2:t" recipient where
  row := Table.mem_of_get hp
  status := h.1
  payer := ⟨"payer", h.2.1, rfl⟩
  s2Armor := h.2.2.1
  recipient := h.2.2.2

/-- Nine operations without a failure are enough for the next start. -/
theorem stopped_boots (h : ((Service.boot Sample.upstream Sample.config [109]).exec (handler Sample.upstream)
    (List.replicate 9 {}) (stopped recipient n)).1 = .ret ()) :
    Boots Sample.upstream Sample.config [109] (stopped recipient n) (List.replicate 9 {}) where
  finished := h
  reads ev hev _ := by
    rw [List.eq_of_mem_replicate (Prog.input_mem_of_events hev)]

end

/-- A payment to the master key gets its reply after the restart. -/
theorem stopRun_redispatched : Redispatched (stopped "m" 16)
    (booted Sample.upstream Sample.config [109] (stopped "m" 16) (List.replicate 9 {})) "payer" "S2:t" "m" := by
  obtain ⟨p, hp, h⟩ : ∃ p, (stopped "m" 16).db.payment.get "t" = some p ∧ (p.status = .received ∧
      p.payer = some "payer" ∧ p.s2Armor = some "S2:t" ∧ p.recipient = some "m") := by decide
  have identity : (Pool.heads (after Sample.upstream (World.fresh payerWallet 1000) (stopRun "m" 16))).all
      (fun h => h.call.identity.all fun k => k = [109]) = true := by decide
  have samples : Derive.Samples Sample.upstream := fun _ => ⟨0, by decide, rfl⟩
  refine (redispatched_iff Sample.upstream samples [109] payerWallet 1000 (stopRun "m" 16) (fun hd hhd k hk => ?_)
    Sample.config (List.replicate 9 {}) (stopped_boots rfl) (stopped_unreplied hp h)).2 (Or.inl rfl)
  simpa [hk] using List.all_eq_true.1 identity hd hhd

/-- A payment to the key of an invoice it paid does not: the invoice is no longer open. -/
theorem stopRun_skipped : Boots Sample.upstream Sample.config [109] (stopped "mi" 18) (List.replicate 9 {}) ∧
    ¬ RepliesRecovered Sample.upstream Sample.config [109] (stopped "mi" 18) (List.replicate 9 {}) := by
  refine ⟨stopped_boots rfl, fun recovered => ?_⟩
  obtain ⟨p, hp, h⟩ : ∃ p, (stopped "mi" 18).db.payment.get "t" = some p ∧ (p.status = .received ∧
      p.payer = some "payer" ∧ p.s2Armor = some "S2:t" ∧ p.recipient = some "mi") := by decide
  obtain ⟨d, hd, -⟩ := recovered p _ _ _ (stopped_unreplied hp h)
  have silent : (booted Sample.upstream Sample.config [109] (stopped "mi" 18) (List.replicate 9 {})).outbox.drop
      (stopped "mi" 18).outbox.length = [] := by decide
  rw [silent] at hd
  cases hd

end GoblinPay
