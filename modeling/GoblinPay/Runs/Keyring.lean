import GoblinPay.Runs.Unwatched

/-!
# The keys of the directory

The database names public keys and the snapshot computes secrets anew, with the nsec and the match mode of the moment.
While every scan finds rows of its own nsec and derived invoices that were derived when they were made (`Suited`), each
key of the snapshot is that of its secret, and a wrap is opened, recorded and answered as the identity it addresses.
-/

namespace GoblinPay

open Async Sql

section

variable {W : Type} (U : Upstream W)

/-- Every key of the map is that of its secret. -/
def TrueKeys (map : Snapshot) : Prop := ∀ hex secret, map.lookup hex = some secret → U.xonlyHex secret = hex

/-- The wrap was opened with the keys of the identity its tag names. -/
structure OpenedAs (event : NostrEvent) (hex : String) (u : Unwrapped) : Prop where
  tag : Protocol.tagValue "p" event.tags = some hex
  keys : ∃ keys, U.xonlyHex keys = hex ∧ Wrap.unwrapGiftWrap U keys event = .ok u

/-- What the handling of a wrap does with what it opened: it looks up the rumor, records the payment and replies. -/
def Addressed {β : Type} (event : NostrEvent) : Eff β → Prop
  | .isSeen key => key = event.id ∨ ∃ hex u, OpenedAs U event hex u ∧ key = u.rumor.id
  | .sql (.insertPayment row) => ∃ hex u, OpenedAs U event hex u ∧ row.recipient = hex ∧ row.payer = some u.sender
  | .deliver d => ∃ hex u, OpenedAs U event hex u ∧ d.sender = hex ∧ d.payer = u.sender
  | _ => True

/-- The reply is from the identity a payment is recorded for, to its payer, as the boot `h` read it. -/
def StoredReply (T : List (Happening W)) (h : Head Call (World W)) (d : Dispatch) : Prop :=
  ∃ x s, (⟨h, .sql .selectUnreplied, x, s⟩ : Happening W) ∈ T ∧ ∃ p ∈ s.db.payment.rows,
    p.recipient.getD "" = d.sender ∧ ∃ payer, p.payer = some payer ∧ U.publicKeyFromHex payer = some d.payer

/-! ## Where rows come from -/

namespace Happening

def Creates (ev : Happening W) (i : String) : Prop :=
  ev.state.db.invoice.get i = none ∧ ∃ inv, (ev.after (handler U)).db.invoice.get i = some inv

def Assigns (ev : Happening W) (k : String × Int64) : Prop :=
  ev.state.db.endpub.get k = none ∧ ∃ ep, (ev.after (handler U)).db.endpub.get k = some ep

/-- The invoice was created under the nsec `sk`, and its mode then was derived. -/
def DerivedUnder (sk : Secret) (ev : Happening W) : Prop := ∃ cfg ttl body row, ev.head.call = .createInvoice cfg ttl body ∧
  cfg.keys = some sk ∧ ev.eff.write = some (.create row) ∧ row.matchMode.getD cfg.matchMode = .derived

end Happening

/-- Every scan of the run finds derived invoices that were made under its own nsec and as derived ones, and endpubs that
were assigned under its own nsec. -/
structure Suited (T : List (Happening W)) : Prop where
  invoices : ∀ h x s mode master, (⟨h, .sql (.selectDerivedInvoices mode), x, s⟩ : Happening W) ∈ T → x.fault = none →
    h.call.identity = some master → ∀ i inv, s.db.invoice.get i = some inv → inv.openIn mode .derived = true →
      ∀ ev ∈ T, Happening.Creates U ev i → ev.DerivedUnder master
  endpubs : ∀ h x s overlap master, (⟨h, .sql (.watchedPubkeys overlap), x, s⟩ : Happening W) ∈ T → x.fault = none →
    h.call.identity = some master → ∀ k ep u, s.db.endpub.get k = some ep → s.db.user.get ep.userId = some u →
      u.epoch.toInt - overlap.toInt ≤ ep.epoch.toInt →
      ∀ ev ∈ T, Happening.Assigns U ev k → ev.head.call.identity = some master

variable {U} {T : List (Happening W)}

variable (U) in
/-- Each row was made by an operation of `T`. -/
structure Made (T : List (Happening W)) (s : World W) : Prop where
  invoices : ∀ i inv, s.db.invoice.get i = some inv → ∃ ev ∈ T, ev.Creates U i ∧
    ∃ row, ev.eff.write = some (.create row) ∧ row.id = i ∧ inv.recipientPubkey = some row.recipientPubkey
  endpubs : ∀ k ep, s.db.endpub.get k = some ep → ∃ ev ∈ T, ev.Assigns U k ∧ ev.eff.write = some (.assign k.1 k.2 ep.pubkey)

theorem Made.fresh (wallet : W) (now : Time) : Made U T (World.fresh wallet now) :=
  ⟨fun i inv h => by simp [World.fresh, Db.empty, Table.empty, Table.get] at h,
    fun k ep h => by simp [World.fresh, Db.empty, Table.empty, Table.get] at h⟩

theorem Made.step {ev : Happening W} (hev : ev ∈ T) (made : Made U T ev.state) : Made U T (ev.after (handler U)) where
  invoices i inv hi := by
    have change := ev.eff.invoice_change U ev.input ev.state i
    have hafter : (act U ev.input ev.state ev.eff).2.db.invoice.get i = some inv := hi
    rw [hafter] at change
    generalize hbefore : ev.state.db.invoice.get i = r at change
    cases change with
    | keep => exact made.invoices i inv hbefore
    | @create row hby hrow => exact ⟨ev, hev, ⟨hbefore, _, hafter⟩, row, hby, hrow, rfl⟩
    | @expire row | @sweep row | @pay row | @arm row | @confirm row => exact made.invoices i row hbefore
  endpubs k ep hep := by
    have change := ev.eff.endpub_change U ev.input ev.state k
    have hafter : (act U ev.input ev.state ev.eff).2.db.endpub.get k = some ep := hep
    rw [hafter] at change
    generalize hbefore : ev.state.db.endpub.get k = r at change
    cases change with
    | keep => exact made.endpubs k ep hbefore
    | assign hby hk =>
      subst hk
      exact ⟨ev, hev, ⟨hbefore, _, hafter⟩, hby⟩

theorem Happening.Creates.write {ev : Happening W} {i : String} (h : ev.Creates U i) : ∃ row, ev.eff.write = some (.create row) := by
  have change := ev.eff.invoice_change U ev.input ev.state i
  obtain ⟨habsent, inv, hafter⟩ := h
  have hafter : (act U ev.input ev.state ev.eff).2.db.invoice.get i = some inv := hafter
  rw [habsent, hafter] at change
  cases change with
  | create hby _ => exact ⟨_, hby⟩

theorem Happening.Assigns.write {ev : Happening W} {k : String × Int64} (h : ev.Assigns U k) :
    ∃ u epoch pubkey, ev.eff.write = some (.assign u epoch pubkey) := by
  have change := ev.eff.endpub_change U ev.input ev.state k
  obtain ⟨habsent, ep, hafter⟩ := h
  have hafter : (act U ev.input ev.state ev.eff).2.db.endpub.get k = some ep := hafter
  rw [habsent, hafter] at change
  cases change with
  | assign hby _ => exact ⟨_, _, _, hby⟩

/-! ## What a scan finds -/

variable (U) in
/-- The rows a scan takes bear the keys it derives. -/
structure Scanned (T : List (Happening W)) : Prop where
  invoices : ∀ {h x s mode master i inv}, (⟨h, .sql (.selectDerivedInvoices mode), x, s⟩ : Happening W) ∈ T →
    x.fault = none → h.call.identity = some master → s.db.invoice.get i = some inv → inv.openIn mode .derived = true →
    inv.recipientPubkey = some (Derive.invoicePubkeyHex U master i)
  endpubs : ∀ {h x s overlap master k ep u}, (⟨h, .sql (.watchedPubkeys overlap), x, s⟩ : Happening W) ∈ T →
    x.fault = none → h.call.identity = some master → s.db.endpub.get k = some ep → s.db.user.get ep.userId = some u →
    u.epoch.toInt - overlap.toInt ≤ ep.epoch.toInt → ep.pubkey = Derive.endpubPubkeyHex U master k.1 k.2

theorem scanned_of_suited {wallet : W} {now : Time} {ms : Run} (suited : Suited U (history U (World.fresh wallet now) ms)) :
    Scanned U (history U (World.fresh wallet now) ms) := by
  have made : ∀ ev ∈ history U (World.fresh wallet now) ms, Made U (history U (World.fresh wallet now) ms) ev.state := fun ev hev =>
    Pool.inv_mem_trace (handler U) (code U) (P := Pool.start (World.fresh wallet now)) (Made.fresh wallet now)
      (fun ev hev made => made.step hev) hev
  have signed : ∀ ev ∈ history U (World.fresh wallet now) ms, ∀ wr, ev.eff.write = some wr → SignedWrite U ev.head ev.state wr :=
    fun ev hev wr hwr => watch_run (fun c s => signed_call c s) hev hwr
  constructor
  · intro h x s mode master i inv hscan hsure hid hget hopen
    obtain ⟨ev, hev, hcreates, row, hwrite, rfl, hrecipient⟩ := (made _ hscan).invoices i inv hget
    obtain ⟨cfg, ttl, body, row', hcall, hkeys, hwrite', hmode⟩ := suited.invoices h x s mode master hscan hsure hid _ inv hget hopen ev hev hcreates
    obtain rfl : row = row' := Write.create.inj (Option.some.inj (hwrite.symm.trans hwrite'))
    obtain ⟨cfg', ttl', body', sk, params, token, hcall', hkeys', hrow⟩ := signed ev hev _ hwrite
    obtain rfl : cfg = cfg' := by
      cases hcall.symm.trans hcall'
      rfl
    obtain rfl : master = sk := Option.some.inj (hkeys.symm.trans hkeys')
    have mode : row.matchMode = params.matchMode := congrArg InvoiceRow.matchMode hrow
    have recipient : row.recipientPubkey = if params.matchMode.getD cfg.matchMode = .derived then
        Derive.invoicePubkeyHex U master row.id else U.xonlyHex master := congrArg InvoiceRow.recipientPubkey hrow
    rw [mode] at hmode
    rw [hrecipient, recipient, if_pos hmode]
  · intro h x s overlap master k ep u hscan hsure hid hget hu hwindow
    obtain ⟨ev, hev, hassigns, hwrite⟩ := (made _ hscan).endpubs k ep hget
    have hcall := suited.endpubs h x s overlap master hscan hsure hid k ep u hget hu hwindow ev hev hassigns
    obtain ⟨sk, hcall', hpub⟩ := signed ev hev _ hwrite
    obtain rfl : master = sk := Option.some.inj (hcall.symm.trans hcall')
    exact hpub

/-- A map that is rebuilt from such rows. -/
theorem trueKeys_rows {master : Secret} {rows : List (String × Option String)} {eps : List Endpub}
    (hrows : ∀ row ∈ rows, row.2 = some (Derive.invoicePubkeyHex U master row.1))
    (heps : ∀ ep ∈ eps, ep.pubkey = Derive.endpubPubkeyHex U master ep.userId ep.epoch) :
    TrueKeys U (eps.foldl (Directory.insertEndpub U master) (rows.foldl (Directory.insertInvoice U master) [])) := by
  intro hex secret hlookup
  obtain ⟨ep, hep, rfl, rfl⟩ | hlookup := Snapshot.of_lookup_foldl (f := Endpub.pubkey) hlookup
  · exact (heps ep hep).symm
  · obtain ⟨row, hrow, rfl, rfl⟩ | hlookup := Snapshot.of_lookup_foldl
      (f := fun row : String × Option String => row.2.getD (Derive.invoicePubkeyHex U master row.1)) hlookup
    · rw [hrows row hrow]
      rfl
    · cases hlookup

/-! ## The contract -/

/-- What an operation hands the relays. -/
def Eff.delivers {β : Type} : Eff β → Option Dispatch
  | .deliver d => some d
  | _ => none

/-- An operation that shows nothing of an identity. -/
def Eff.Plain {β : Type} : Eff β → Prop
  | .isSeen _ | .setSnapshot _ | .deliver _ | .sql (.insertPayment _) => False
  | _ => True

variable (U T) in
/-- What an operation of a call owes. -/
structure KeyDuty (h : Head Call (World W)) {β : Type} (e : Eff β) : Prop where
  built : ∀ map, e.sets = some map → TrueKeys U map
  wrap : ∀ cfg master event, h.call = .handleEvent cfg master event → Addressed U event e
  reply : ∀ cfg master d, h.call = .boot cfg master → e.delivers = some d → StoredReply U T h d

variable (U T) in
def keyring : Discipline (handler U) (Head Call (World W)) Unit where
  inv s := TrueKeys U s.memory.snapshot
  rely _ _ _ _ := True
  before h _ e _ := KeyDuty U T h e
  allowed h e x s := (⟨h, e, x, s⟩ : Happening W) ∈ T
  gain _ _ _ := ()
  rely_refl _ _ _ := trivial
  rely_trans _ _ := trivial

variable {h : Head Call (World W)} {g : Unit} {s : World W} {α β : Type} {e : Eff β} {cfg : Config} {master keys : Secret}
  {event : NostrEvent} {u : Unwrapped} {hex : String}

theorem KeyDuty.of_plain (he : e.Plain) : KeyDuty U T h e where
  built map hmap := by cases e <;> first | exact he.elim | cases hmap
  wrap cfg master event _ := by
    cases e with
    | sql q => cases q <;> first | exact trivial | exact he.elim
    | _ => first | exact trivial | exact he.elim
  reply cfg master d _ hd := by cases e <;> first | exact he.elim | cases hd

/-- The operations the relay service has no part in owe what they record for a wrap. -/
theorem KeyDuty.of_silent (he : e.Silent) (hinsert : ∀ cfg master event, h.call = .handleEvent cfg master event → ∀ row,
    e.write = some (.insert row) → ∃ hex u, OpenedAs U event hex u ∧ row.recipient = hex ∧ row.payer = some u.sender) :
    KeyDuty U T h e where
  built map hmap := by
    rw [he.outside.sets] at hmap
    cases hmap
  wrap cfg master event hcall := by
    cases e with
    | sql q =>
      cases q with
      | insertPayment row => exact hinsert cfg master event hcall row rfl
      | _ => exact trivial
    | _ => first | exact trivial | exact he.elim
  reply cfg master d _ hd := by cases e <;> first | exact he.elim | cases hd

/-- An operation that is no matter of the directory or of a wrap. -/
theorem keyring_plain (he : e.Plain) : Meets (keyring U T) h (fun _ _ _ => True) (Prog.call e) g s :=
  fun _ _ _ => ⟨.of_plain he, fun _ _ _ _ _ => trivial⟩

theorem keyring_silent {p : Io α} (hp : p.Only Eff.Silent) (hcall : ∀ cfg master event, h.call ≠ .handleEvent cfg master event) :
    Meets (keyring U T) h (fun _ _ _ => True) p g s :=
  Meets.of_only hp fun _ _ _ he => .of_silent he fun cfg master event heq => absurd heq (hcall cfg master event)

/-- A query answers as its operation in the run does. -/
theorem keyring_scan {q : Stmt β} (hq : (Eff.sql q).Plain) {P : Except SqlxError β → Prop}
    (hP : ∀ x s, (⟨h, .sql q, x, s⟩ : Happening W) ∈ T → P (act U x s (.sql q)).1) :
    Meets (keyring U T) h (fun a _ _ => P a) (sql q).run g s :=
  fun s' _ _ => ⟨.of_plain hq, fun x hx _ _ _ => hP x s' hx⟩

theorem keyring_buildSnapshot (scanned : Scanned U T) (hid : h.call.identity = some master) (mode : MatchMode) (overlap : Int64) :
    Meets (keyring U T) h (fun map _ _ => TrueKeys U map) (Directory.buildSnapshot U master mode overlap) g s := by
  have invoices : Meets (keyring U T) h (fun rows _ _ => ∀ row ∈ rows.toOption.getD [], row.2 = some (Derive.invoicePubkeyHex U master row.1))
      (sql (.selectDerivedInvoices mode)).run g s := by
    refine keyring_scan (q := .selectDerivedInvoices mode) trivial fun x s hx => ?_
    rcases hanswer : (act U x s (.sql (.selectDerivedInvoices mode))).1 with e | rows
    · exact fun row hrow => by cases hrow
    · obtain ⟨hsure, hq, -⟩ := act_sql_ok hanswer
      cases hq
      intro row hrow
      obtain ⟨inv, hinv, rfl⟩ := List.mem_map.1 hrow
      obtain ⟨hget, hopen⟩ := Table.mem_select.1 hinv
      exact scanned.invoices hx hsure hid hget hopen
  refine Meets.andThen invoices fun rows g s _ byInvoice => ?_
  have endpubs : Meets (keyring U T) h (fun eps _ _ => ∀ ep ∈ eps.toOption.getD [], ep.pubkey = Derive.endpubPubkeyHex U master ep.userId ep.epoch)
      (Endpub.watchedPubkeys overlap).run g s := by
    refine keyring_scan (q := .watchedPubkeys (max overlap 0)) trivial fun x s hx => ?_
    rcases hanswer : (act U x s (.sql (.watchedPubkeys (max overlap 0)))).1 with e | eps
    · exact fun ep hep => by cases hep
    · obtain ⟨hsure, hq, -⟩ := act_sql_ok hanswer
      cases hq
      intro ep hep
      obtain ⟨hget, hwindow⟩ := Table.mem_select.1 hep
      obtain ⟨u, hu, hepoch⟩ := (Option.any_eq_true _ _).1 hwindow
      exact scanned.endpubs hx hsure hid hget hu (by simpa using hepoch)
  refine Meets.andThen endpubs fun eps g s _ byEndpub => ?_
  cases eps with
  | ok eps => exact fun _ _ _ => trueKeys_rows byInvoice byEndpub
  | error e =>
    have none : ∀ ep ∈ ([] : List Endpub), ep.pubkey = Derive.endpubPubkeyHex U master ep.userId ep.epoch := nofun
    exact fun _ _ _ => trueKeys_rows byInvoice none

theorem keyring_refresh (scanned : Scanned U T) (hid : h.call.identity = some master) (hwrap : ∀ cfg master event, h.call ≠ .handleEvent cfg master event)
    (cfg : Config) : Meets (keyring U T) h (fun _ _ _ => True) (Directory.refreshSnapshot U cfg master) g s := by
  refine Meets.andThen (keyring_buildSnapshot scanned hid _ _) fun map g s _ htrue => ?_
  refine fun _ _ _ => ⟨⟨fun map' hmap => ?_, fun cfg master event hcall => absurd hcall (hwrap cfg master event), fun _ _ _ _ => nofun⟩,
    fun _ _ _ _ _ => trivial⟩
  cases hmap
  exact htrue

/-- The directory answers with the keys of what it is asked for. -/
theorem keyring_resolve (master : Secret) (hex : String) :
    Meets (keyring U T) h (fun keys _ _ => ∀ k, keys = some k → U.xonlyHex k = hex) (Directory.resolve U master hex) g s := by
  unfold Directory.resolve
  split
  · rename_i hmaster
    intro _ _ _ k hk
    cases hk
    exact hmaster.symm
  · refine fun s' _ hinv => ⟨.of_plain trivial, fun x _ _ _ _ k hk => ?_⟩
    obtain ⟨v, hv, hkeys⟩ := Option.bind_eq_some_iff.1 hk
    obtain rfl := Directory.keysFromSecret_eq_some hkeys
    exact hinv hex v hv

/-! ## The calls -/

theorem keyring_mark (key : String) : Meets (keyring U T) h (fun _ _ _ => True) (Ingest.mark key) g s := keyring_plain trivial

variable (U) in
/-- The reply to a wrap is from the identity the wrap names, to its sender. -/
def IngestOutcome.Replies (event : NostrEvent) : IngestOutcome → Prop
  | .received _ _ pending => ∃ hex u, OpenedAs U event hex u ∧ U.xonlyHex pending.sender = hex ∧ pending.payer = u.sender
  | _ => True

theorem keyring_drop (wrapId rumorId reason : String) :
    Meets (keyring U T) h (fun o _ _ => o.Replies U event) (Ingest.drop wrapId rumorId reason) g s :=
  Meets.andThen (keyring_mark _) fun _ _ _ _ _ => Meets.andThen (keyring_mark _) fun _ _ _ _ _ _ _ _ => trivial

variable (hcall : h.call = .handleEvent cfg master event)

include hcall

theorem keyring_handOff (opened : OpenedAs U event (U.xonlyHex keys) u) (wrapId : String) :
    Meets (keyring U T) h (fun o _ _ => o.Replies U event) (Ingest.handOff U cfg wrapId keys u) g s := by
  have receive : Meets (keyring U T) h (fun _ _ _ => True) (WalletReceiver.receive U cfg
      ((Protocol.extractSlatepack u.rumor.content).getD "") ⟨u.sender, U.xonlyHex keys, Protocol.extractSubject u.rumor.tags⟩) g s := by
    refine Meets.of_only (footprint_receive U cfg _ _) fun e _ _ he => .of_silent he.1 ?_
    intro cfg' master' event' hcall' row hrow
    cases hcall.symm.trans hcall'
    obtain ⟨hrecipient, hpayer⟩ := he.2 _ hrow row rfl
    exact ⟨_, u, opened, hrecipient, hpayer⟩
  refine Meets.andThen receive fun result _ _ _ _ => ?_
  split
  · refine Meets.andThen (keyring_mark _) fun _ _ _ _ _ => Meets.andThen (keyring_mark _) fun _ _ _ _ _ => ?_
    exact Meets.andThen (keyring_mark _) fun _ _ _ _ _ _ _ _ => ⟨_, u, opened, rfl, rfl⟩
  · exact keyring_drop _ _ _
  · exact keyring_drop _ _ _
  · exact fun _ _ _ => trivial

theorem keyring_seen {key : String} (hkey : key = event.id ∨ ∃ hex u, OpenedAs U event hex u ∧ key = u.rumor.id) :
    Meets (keyring U T) h (fun _ _ _ => True) (Ingest.isSeen key) g s := by
  refine fun _ _ _ => ⟨⟨fun _ => nofun, fun cfg' master' event' hcall' => ?_, fun _ _ _ _ => nofun⟩, fun _ _ _ _ _ => trivial⟩
  cases hcall.symm.trans hcall'
  exact hkey

theorem keyring_screen (opened : OpenedAs U event (U.xonlyHex keys) u) :
    Meets (keyring U T) h (fun o _ _ => o.Replies U event) (Ingest.screen U cfg master event.id keys u) g s := by
  unfold Ingest.screen
  refine Meets.andThen (keyring_seen hcall (Or.inr ⟨_, u, opened, rfl⟩)) fun duplicate _ _ _ _ => ?_
  split
  · exact keyring_drop _ _ _
  · refine Meets.andThen (keyring_plain trivial) fun ok _ _ _ _ => ?_
    split
    · exact keyring_handOff hcall opened _
    · exact fun _ _ _ => trivial

theorem keyring_openWrap : Meets (keyring U T) h (fun o _ _ => o.Replies U event) (Ingest.openWrap U cfg master event) g s := by
  have named : Meets (keyring U T) h (fun keys _ _ => ∀ k, keys = some k → Protocol.tagValue "p" event.tags = some (U.xonlyHex k))
      (Ingest.recipientKeys U master event) g s := by
    unfold Ingest.recipientKeys
    split
    · rename_i hex htag
      refine (keyring_resolve master hex).mono fun keys _ _ _ hkeys k hk => ?_
      rw [htag, hkeys k hk]
    · exact fun _ _ _ _ => nofun
  unfold Ingest.openWrap
  refine Meets.andThen named fun keys _ _ _ hkeys => ?_
  split
  · exact Meets.andThen (keyring_mark _) fun _ _ _ _ _ _ _ _ => trivial
  · rename_i keys
    split
    · exact Meets.andThen (keyring_mark _) fun _ _ _ _ _ _ _ _ => trivial
    · rename_i u hu
      exact keyring_screen hcall ⟨hkeys keys rfl, keys, rfl, hu⟩

theorem keyring_handleWrap : Meets (keyring U T) h (fun o _ _ => o.Replies U event) (Ingest.handleWrap U cfg master event) g s := by
  unfold Ingest.handleWrap
  split
  · exact fun _ _ _ => trivial
  split
  · exact Meets.andThen (keyring_mark _) fun _ _ _ _ _ _ _ _ => trivial
  refine Meets.andThen (keyring_seen hcall (Or.inl rfl)) fun seen _ _ _ _ => ?_
  split
  · exact fun _ _ _ => trivial
  refine Meets.andThen (keyring_plain trivial) fun ok _ _ _ _ => ?_
  split
  · exact keyring_openWrap hcall
  · exact fun _ _ _ => trivial

omit hcall

theorem keyring_reply {pending : PendingReply} (slateId : String)
    (owed : KeyDuty U T h (.deliver ⟨U.xonlyHex pending.sender, pending.payer, pending.content, pending.tags⟩)) :
    Meets (keyring U T) h (fun _ _ _ => True) (Service.reply U slateId pending) g s := by
  refine Meets.andThen (I := fun _ _ _ => True) (fun _ _ _ => ⟨owed, fun _ _ _ _ _ => trivial⟩) fun sent _ _ _ _ => ?_
  cases sent with
  | true => exact Meets.andThen (I := fun _ _ _ => True) (keyring_plain trivial) fun _ _ _ _ _ _ _ _ => trivial
  | false => exact fun _ _ _ => trivial

include hcall

theorem keyring_handle : Meets (keyring U T) h (fun _ _ _ => True) (Service.handle U cfg master event) g s := by
  unfold Service.handle
  refine Meets.andThen (keyring_handleWrap hcall) fun o _ _ _ ho => ?_
  cases o with
  | received slateId amount pending =>
    refine keyring_reply slateId ⟨fun _ => nofun, fun cfg' master' event' hcall' => ?_, fun cfg' master' d hboot => ?_⟩
    · cases hcall.symm.trans hcall'
      exact ho
    · cases hcall.symm.trans hboot
  | dropped | rateLimited | failed => exact fun _ _ _ => trivial

omit hcall

end

section

variable {W : Type} {U : Upstream W} {T : List (Happening W)} {h : Head Call (World W)} {g : Unit} {s : World W} {cfg : Config}
  {master : Secret}

/-- A stored reply, as a start of the process read it. -/
def Stored (T : List (Happening W)) (h : Head Call (World W)) (p : UnrepliedPayment) : Prop :=
  ∃ x s, (⟨h, .sql .selectUnreplied, x, s⟩ : Happening W) ∈ T ∧ ∃ row ∈ s.db.payment.rows,
    row.recipient.getD "" = p.recipientHex ∧ row.payer = some p.payerHex

theorem keyring_unreplied : Meets (keyring U T) h (fun ps _ _ => ∀ p ∈ ps, Stored T h p) WalletReceiver.unreplied g s := by
  have rows : Meets (keyring U T) h (fun rows _ _ => ∀ row ∈ rows.toOption.getD [], Stored T h (WalletReceiver.unrepliedPayment row))
      (sql .selectUnreplied).run g s := by
    refine keyring_scan (q := .selectUnreplied) trivial fun x s hx => ?_
    rcases hanswer : (act U x s (.sql .selectUnreplied)).1 with e | rows
    · exact fun row hrow => by cases hrow
    · obtain ⟨-, hq, -⟩ := act_sql_ok hanswer
      cases hq
      intro row hrow
      obtain ⟨p, hp, hsome⟩ := List.mem_filterMap.1 hrow
      obtain ⟨payer, hpayer, hsome⟩ := Option.bind_eq_some_iff.1 hsome
      obtain ⟨s2, -, hrow⟩ := Option.bind_eq_some_iff.1 hsome
      cases hrow
      exact ⟨x, s, hx, p, Table.mem_of_get (Table.mem_select.1 hp).1, rfl, hpayer⟩
  refine Meets.andThen rows fun rows _ _ _ hrows _ _ _ p hp => ?_
  obtain ⟨row, hrow, rfl⟩ := List.mem_map.1 hp
  exact hrows row hrow

variable (hcall : h.call = .boot cfg master)

include hcall

theorem keyring_redispatch {p : UnrepliedPayment} (stored : Stored T h p) :
    Meets (keyring U T) h (fun _ _ _ => True) (Service.redispatch U master p) g s := by
  unfold Service.redispatch
  split
  · exact fun _ _ _ => trivial
  rename_i payer hpayer
  refine Meets.andThen (keyring_resolve master p.recipientHex) fun keys _ _ _ hkeys => ?_
  split
  · exact fun _ _ _ => trivial
  rename_i keys
  refine keyring_reply _ ⟨fun _ => nofun, fun cfg' master' event hwrap => ?_, fun _ _ d _ hd => ?_⟩
  · cases hcall.symm.trans hwrap
  · obtain rfl := Option.some.inj hd
    obtain ⟨x, s, hx, row, hrow, hrecipient, hpayerHex⟩ := stored
    exact ⟨x, s, hx, row, hrow, hrecipient.trans (hkeys keys rfl).symm, p.payerHex, hpayerHex, hpayer⟩

theorem keyring_redispatchAll {ps : List UnrepliedPayment} (stored : ∀ p ∈ ps, Stored T h p) :
    Meets (keyring U T) h (fun _ _ _ => True) (Service.redispatchAll U master ps) g s := by
  induction ps generalizing g s with
  | nil => exact fun _ _ _ => trivial
  | cons p ps ih =>
    refine Meets.andThen (keyring_redispatch hcall (stored p List.mem_cons_self)) fun _ _ _ _ _ => ?_
    exact ih fun q hq => stored q (List.mem_cons_of_mem p hq)

theorem keyring_boot (scanned : Scanned U T) : Meets (keyring U T) h (fun _ _ _ => True) (Service.boot U cfg master) g s := by
  have hid : h.call.identity = some master := by rw [hcall]; rfl
  have hwrap : ∀ cfg' master' event, h.call ≠ .handleEvent cfg' master' event := by
    intro cfg' master' event heq
    cases hcall.symm.trans heq
  refine Meets.andThen (I := fun _ _ _ => True) (keyring_plain (e := .restart) trivial) fun _ _ _ _ _ => ?_
  refine Meets.andThen (keyring_refresh scanned hid hwrap cfg) fun _ _ _ _ _ => ?_
  exact Meets.andThen keyring_unreplied fun ps _ _ _ stored => keyring_redispatchAll hcall stored

omit hcall

theorem keyring_code (scanned : Scanned U T) (c : Call) (s : World W) :
    Meets (keyring U T) ⟨c, s⟩ (fun _ _ _ => True) (code U c) () s := by
  have done : ∀ {α : Type} {p : Io α}, Meets (keyring U T) ⟨c, s⟩ (fun _ _ _ => True) p () s →
      Meets (keyring U T) ⟨c, s⟩ (fun _ _ _ => True) (Prog.done p) () s := fun hp => Meets.andThen hp fun _ _ _ _ _ _ _ _ => trivial
  by_cases hc : c.OfRelays
  · cases c with
    | handleEvent cfg master event => exact done (keyring_handle rfl)
    | boot cfg master => exact done (keyring_boot rfl scanned)
    | maintenance cfg master =>
      have hwrap : ∀ cfg' master' event, (Call.maintenance cfg master) ≠ .handleEvent cfg' master' event := fun _ _ _ => nofun
      refine done ?_
      unfold Directory.maintenance
      split
      · refine Meets.andThen (I := fun _ _ _ => True) ?_ fun _ _ _ _ _ => keyring_refresh scanned rfl hwrap cfg
        have rotates : Prog.Footprint (fun _ => True) (discard (Endpub.rotateDue U master cfg.endpubRotateInterval).run) :=
          (Endpub.footprint_rotateDue U master _ (fun _ _ => trivial) fun _ _ => trivial).discard
        exact keyring_silent rotates.silent hwrap
      · exact keyring_refresh scanned rfl hwrap cfg
    | _ => exact hc.elim
  · refine keyring_silent (Call.silent U hc) fun cfg master event heq => hc ?_
    obtain rfl : c = .handleEvent cfg master event := heq
    exact trivial

theorem TrueKeys.act {β : Type} {e : Eff β} (x : Answer) (hset : ∀ map, e.sets = some map → TrueKeys U map)
    (held : TrueKeys U s.memory.snapshot) : TrueKeys U (act U x s e).2.memory.snapshot := by
  obtain hmap | ⟨hempty, -⟩ | ⟨hsame, -⟩ := Eff.snapshot_act (U := U) (s := s) e x
  · exact hset _ hmap
  · rw [hempty]
    exact fun _ _ => nofun
  · rw [hsame]
    exact held

variable (U) in
def keyringProtocol (scanned : Scanned U T) : Protocol (handler U) (code U) Unit where
  toDiscipline := keyring U T
  init := ()
  start_meets {c s} _ _ _ := keyring_code scanned c s
  keeps {_ _ _ _ x _} held _ duty _ := ⟨TrueKeys.act x duty.built held, trivial⟩
  yields _ _ _ _ _ _ := trivial

/-! ## Every run -/

variable (U) in
/-- In the operations `T` of a run that ends in the state `s`, every public key went with its own secret. -/
structure Identified (T : List (Happening W)) (s : World W) : Prop where
  built : ∀ ev ∈ T, ∀ map, ev.eff.sets = some map → TrueKeys U map
  reached : ∀ ev ∈ T, TrueKeys U ev.state.memory.snapshot
  held : TrueKeys U s.memory.snapshot
  resolved : ∀ master hex xs keys, ((Directory.resolve U master hex).exec (handler U) xs s).1 = .ret (some keys) → U.xonlyHex keys = hex
  wraps : ∀ ev ∈ T, ∀ cfg master event, ev.head.call = .handleEvent cfg master event → Addressed U event ev.eff
  replies : ∀ ev ∈ T, ∀ cfg master d, ev.head.call = .boot cfg master → ev.eff.delivers = some d → StoredReply U T ev.head d

theorem resolve_true (held : TrueKeys U s.memory.snapshot) {hex : String} {xs : List Answer} {keys : Secret}
    (h : ((Directory.resolve U master hex).exec (handler U) xs s).1 = .ret (some keys)) : U.xonlyHex keys = hex := by
  unfold Directory.resolve at h
  split at h
  · rename_i hmaster
    rw [Prog.pure_eq, Prog.exec_ret] at h
    cases h
    exact hmaster.symm
  · cases xs with
    | nil => cases h
    | cons x xs =>
      simp only [Prog.call_bind, Prog.exec] at h
      rw [Prog.pure_eq, Prog.exec_ret] at h
      obtain ⟨v, hv, hkeys⟩ := Option.bind_eq_some_iff.1 (Prog.ret.inj h)
      obtain rfl := Directory.keysFromSecret_eq_some hkeys
      exact held hex v hv

variable (U) in
/-- While the nsec and the matching of what a scan finds are those it was made with, a wrap is opened, recorded and answered as the
identity it names, and a stored reply goes out from the identity that was paid. -/
theorem identified_of_suited (wallet : W) (now : Time) (ms : Run) (suited : Suited U (history U (World.fresh wallet now) ms)) :
    Identified U (history U (World.fresh wallet now) ms) (after U (World.fresh wallet now) ms).state := by
  have scanned := scanned_of_suited suited
  have fresh : TrueKeys U (World.fresh wallet now).memory.snapshot := fun _ _ => nofun
  have admitted : (keyringProtocol U scanned).Admitted (Pool.start (World.fresh wallet now)) ms :=
    ⟨fun _ hev => hev, fun _ _ => trivial, List.pairwise_of_forall fun _ _ => trivial⟩
  have kept : ∀ ev ∈ history U (World.fresh wallet now) ms, TrueKeys U ev.state.memory.snapshot ∧
      KeyDuty U (history U (World.fresh wallet now) ms) ev.head ev.eff := fun ev hev => by
    obtain ⟨held, _, -, duty⟩ := (keyringProtocol U scanned).mem_trace_before fresh (fun _ => trivial) admitted hev
    exact ⟨held, duty⟩
  have held : TrueKeys U (after U (World.fresh wallet now) ms).state.memory.snapshot :=
    Pool.inv_run (handler U) (code U) (P := Pool.start (World.fresh wallet now)) (I := fun s => TrueKeys U s.memory.snapshot) fresh
      fun ev hev held => TrueKeys.act ev.input (kept ev hev).2.built held
  exact ⟨fun ev hev => (kept ev hev).2.built, fun ev hev => (kept ev hev).1, held, fun _ _ _ _ h => resolve_true held h,
    fun ev hev => (kept ev hev).2.wrap, fun ev hev => (kept ev hev).2.reply⟩

variable (U) in
/-- A server that keeps its nsec and derives a key for every invoice meets the condition. -/
theorem suited_of_single {wallet : W} {now : Time} {ms : Run} {sk : Secret}
    (hid : ∀ ev ∈ history U (World.fresh wallet now) ms, ∀ k, ev.head.call.identity = some k → k = sk)
    (hderived : ∀ ev ∈ history U (World.fresh wallet now) ms, ∀ row, ev.eff.write = some (.create row) → ev.DerivedUnder sk) :
    Suited U (history U (World.fresh wallet now) ms) where
  invoices h x s mode master hscan _ hmaster i inv _ _ ev hev hcreates := by
    obtain ⟨row, hwrite⟩ := hcreates.write
    rw [hid _ hscan master hmaster]
    exact hderived ev hev row hwrite
  endpubs h x s overlap master hscan _ hmaster k ep u _ _ _ ev hev hassigns := by
    obtain ⟨u, epoch, pubkey, hwrite⟩ := hassigns.write
    obtain ⟨k, hk, -⟩ : SignedWrite U ev.head ev.state (.assign u epoch pubkey) := watch_run (fun c s => signed_call c s) hev hwrite
    rw [hk, hid ev hev k hk, hid _ hscan master hmaster]

end

/-! ## A derived invoice, and a default one -/

/-- `POST /invoice` without a mode under the default `memo`, and a start under the default `derived`, with the nsec `master`. -/
def switchRun (master : Secret) : Run :=
  [.start (.createInvoice Sample.config 900 { amountGrin := some 100 }),
   .run 0 { text := "i" }, .run 0 { text := "tok" }, .run 0 {}, .run 0 {}, .run 0 {}, .run 0 {},
   .start (.boot { Sample.config with matchMode := .derived } master), .run 1 {}, .run 1 {}, .run 1 {}, .run 1 {}, .run 1 {}]

/-- The write makes no invoice, or a derived one for the request of `tickRun`. -/
def Happening.derives (ev : Happening Sample.Wallet) : Write → Bool
  | .create row => row.matchMode = some .derived && ev.head.call = .createInvoice Sample.config 900
      { amountGrin := some 100, matchMode := some "derived" }
  | _ => true

theorem tickRun_identified :
    Identified Sample.upstream (history Sample.upstream (World.fresh payerWallet 1000) (tickRun none 20))
      (after Sample.upstream (World.fresh payerWallet 1000) (tickRun none 20)).state ∧
    (after Sample.upstream (World.fresh payerWallet 1000) (tickRun none 20)).state.memory.snapshot = [("mi", [109, 105])] := by
  have calls : (history Sample.upstream (World.fresh payerWallet 1000) (tickRun none 20)).all (fun ev =>
      ev.head.call.identity = some [109]) = true := by decide
  have creates : (history Sample.upstream (World.fresh payerWallet 1000) (tickRun none 20)).all (fun ev =>
      ev.eff.write.all ev.derives) = true := by decide
  have one : ∀ ev ∈ history Sample.upstream (World.fresh payerWallet 1000) (tickRun none 20), ∀ k, ev.head.call.identity = some k →
      k = [109] := by
    intro ev hev k hk
    have here := List.all_eq_true.1 calls ev hev
    rw [decide_eq_true_eq, hk] at here
    exact Option.some.inj here
  have derived : ∀ ev ∈ history Sample.upstream (World.fresh payerWallet 1000) (tickRun none 20), ∀ row,
      ev.eff.write = some (.create row) → ev.DerivedUnder [109] := by
    intro ev hev row hrow
    have here := List.all_eq_true.1 creates ev hev
    rw [hrow, Option.all_some, Happening.derives, Bool.and_eq_true, decide_eq_true_eq, decide_eq_true_eq] at here
    exact ⟨_, _, _, row, here.2, rfl, hrow, by rw [here.1]; rfl⟩
  exact ⟨identified_of_suited Sample.upstream payerWallet 1000 (tickRun none 20) (suited_of_single Sample.upstream one derived), by decide⟩

/-- The invoice was made to be paid on the server's own key, which then goes with a derived secret; and after a change of the nsec the
directory answers for it. -/
theorem switchRun_miskeyed : (¬ ∀ ms, Identified Sample.upstream (history Sample.upstream Sample.world ms) (after Sample.upstream Sample.world ms).state) ∧
    (after Sample.upstream Sample.world (switchRun [109])).state.memory.snapshot = [("m", [109, 105])] ∧
    Sample.upstream.xonlyHex [109, 105] ≠ "m" ∧
    ∃ keys, ((Directory.resolve Sample.upstream [110] "m").exec (handler Sample.upstream) [{}]
      (after Sample.upstream Sample.world (switchRun [110])).state).1 = .ret (some keys) ∧ Sample.upstream.xonlyHex keys ≠ "m" := by
  have apart : Sample.upstream.xonlyHex [109, 105] ≠ "m" := by decide
  refine ⟨fun identified => apart ?_, by decide, apart, [110, 105], rfl, by decide⟩
  exact (identified (switchRun [109])).held "m" [109, 105] (by decide)

end GoblinPay
