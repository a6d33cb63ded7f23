import GoblinPay.Runs.Watch

/-!
# Identities

The database names the server's identities by their public keys and stores no secret. The rows
keep naming the master key or a child of it (`Keyed`), so the snapshot that is rebuilt from them
holds the right secret for every key it holds; which keys it holds is what its queries select.
-/

namespace GoblinPay

open Async Sql

/-- The identity a call acts for. -/
def Call.identity : Call → Option Secret
  | .createInvoice cfg _ _ => cfg.keys
  | .handleEvent _ master _ | .boot _ master | .maintenance _ master | .createUser master _ _
  | .rotateUser master _ => some master
  | _ => none

/-! ## Rows name identities of the server -/

section

variable {W : Type} (U : Upstream W) (sk : Secret)

/-- Every recipient in the database is the master key `sk` or a child of it. -/
structure Keyed (db : Db) : Prop where
  invoice : ∀ i inv, db.invoice.get i = some inv → inv.recipientPubkey = some (U.xonlyHex sk) ∨
    inv.recipientPubkey = some (Derive.invoicePubkeyHex U sk i)
  endpub : ∀ k ep, db.endpub.get k = some ep → ep.pubkey = Derive.endpubPubkeyHex U sk ep.userId ep.epoch

/-- What a call of the identity `sk` owes where it stores a public key. -/
def KeyedWrite (h : Head Call (World W)) (_ : World W) (wr : Write) : Prop :=
  (∀ k, h.call.identity = some k → k = sk) → match wr with
    | .create row => row.recipientPubkey = U.xonlyHex sk ∨
        row.recipientPubkey = Derive.invoicePubkeyHex U sk row.id
    | .assign u epoch pubkey => pubkey = Derive.endpubPubkeyHex U sk u epoch
    | _ => True

/-- What a call of the identity it names owes where it stores a public key. -/
def SignedWrite (h : Head Call (World W)) (_ : World W) : Write → Prop
  | .create row => ∃ cfg ttl body k params token, h.call = .createInvoice cfg ttl body ∧ cfg.keys = some k ∧
      row = Invoice.row U params k (U.xonlyHex k) cfg.matchMode row.id token
  | .assign u epoch pubkey => ∃ k, h.call.identity = some k ∧ pubkey = Derive.endpubPubkeyHex U k u epoch
  | _ => True

variable {U sk} {T : List (Happening W)}

theorem signed_call (c : Call) (s : World W) :
    Meets (watch U T (SignedWrite U)) ⟨c, s⟩ (fun _ _ _ => True) (code U c) () s := by
  by_cases hrail : c.IsRail
  · refine watch_rail (fun wr s hwr => ?_) hrail
    cases wr <;> trivial
  · refine watch_of_writes (Call.writes U hrail) fun wr s hwr => ?_
    cases wr with
    | create row =>
      cases c with
      | createInvoice cfg ttl body =>
        obtain ⟨params, k, id, token, hkeys, hrow⟩ | ⟨i, sid, hrow⟩ := hwr
        · cases hrow
          exact ⟨cfg, ttl, body, k, params, token, rfl, hkeys, rfl⟩
        · cases hrow
      | _ => simp [Call.mayWrite] at hwr
    | assign u e k =>
      cases c with
      | maintenance cfg master | rotateUser master id =>
        obtain ⟨u, e, h⟩ | ⟨u, e, h⟩ := hwr
        · cases h
        · cases h
          exact ⟨master, rfl, rfl⟩
      | createUser master id interval =>
        obtain ⟨u, h⟩ | ⟨u, e, h⟩ := hwr
        · cases h
        · cases h
          exact ⟨master, rfl, rfl⟩
      | _ => simp [Call.mayWrite] at hwr
    | _ => trivial

/-- Where every call is of the identity `sk`, what they sign are keys of it. -/
theorem SignedWrite.keyed {h : Head Call (World W)} {s : World W} {wr : Write} (signed : SignedWrite U h s wr) :
    KeyedWrite U sk h s wr := by
  intro hid
  cases wr with
  | create row =>
    obtain ⟨cfg, ttl, body, k, params, token, hcall, hkeys, hrow⟩ := signed
    obtain rfl : k = sk := hid k (by rw [hcall]; exact hkeys)
    have recipient : row.recipientPubkey = if params.matchMode.getD cfg.matchMode = .derived then
        Derive.invoicePubkeyHex U k row.id else U.xonlyHex k := congrArg InvoiceRow.recipientPubkey hrow
    dsimp only
    rw [recipient]
    split
    · exact Or.inr rfl
    · exact Or.inl rfl
  | assign u epoch pubkey =>
    obtain ⟨k, hcall, hpub⟩ := signed
    obtain rfl : k = sk := hid k hcall
    exact hpub
  | _ => trivial

/-- An operation whose writes are keyed keeps the database keyed. -/
theorem Keyed.step {ev : Happening W} (hk : Keyed U sk ev.state.db)
    (hid : ∀ k, ev.head.call.identity = some k → k = sk)
    (hwr : ∀ wr, ev.eff.write = some wr → KeyedWrite U sk ev.head ev.state wr) :
    Keyed U sk (ev.after (handler U)).db where
  invoice i inv hi := by
    have change := ev.eff.invoice_change U ev.input ev.state i
    have hafter : (act U ev.input ev.state ev.eff).2.db.invoice.get i = some inv := hi
    rw [hafter] at change
    generalize hbefore : ev.state.db.invoice.get i = r at change
    cases change with
    | keep => exact hk.invoice i inv hbefore
    | create hby hrow =>
      subst hrow
      exact (hwr _ hby hid).imp (congrArg some) (congrArg some)
    | @expire row | @sweep row | @pay row | @arm row | @confirm row => exact hk.invoice i row hbefore
  endpub k ep hep := by
    have change := ev.eff.endpub_change U ev.input ev.state k
    have hafter : (act U ev.input ev.state ev.eff).2.db.endpub.get k = some ep := hep
    rw [hafter] at change
    generalize hbefore : ev.state.db.endpub.get k = r at change
    cases change with
    | keep => exact hk.endpub k ep hbefore
    | assign hby _ => exact hwr _ hby hid

/-- In every run of a server with the one identity `sk`, every row names a key of it. -/
theorem keyed_run (wallet : W) (now : Time) (ms : Run)
    (hid : ∀ h ∈ Pool.heads (after U (World.fresh wallet now) ms), ∀ k, h.call.identity = some k → k = sk) :
    Keyed U sk (after U (World.fresh wallet now) ms).state.db := by
  have fresh : Keyed U sk (World.fresh wallet now).db :=
    ⟨fun i inv h => by simp [World.fresh, Db.empty, Table.empty, Table.get] at h,
      fun k ep h => by simp [World.fresh, Db.empty, Table.empty, Table.get] at h⟩
  refine Pool.inv_run (handler U) (code U) (P := Pool.start (World.fresh wallet now))
    (I := fun s => Keyed U sk s.db) fresh fun ev hev hk => ?_
  exact hk.step (hid _ (Pool.head_mem (handler U) (code U) hev)) fun wr hwr =>
    (watch_run (fun c s => signed_call c s) hev hwr).keyed

end

/-! ## The snapshot -/

namespace Snapshot

variable {α : Type} {f : α → String} {g : α → Secret} {rows : List α} {map : Snapshot} {k r : String}
  {v : Secret}

theorem lookup_insert : (map.insert k v).lookup r = if r = k then some v else map.lookup r := by
  unfold Snapshot.insert
  by_cases hrk : r = k
  · subst hrk
    simp
  · simp only [hrk, if_false, List.lookup_cons]
    rw [show (r == k) = false by simpa using hrk]
    induction map with
    | nil => rfl
    | cons entry map ih =>
      obtain ⟨k', v'⟩ := entry
      by_cases hk : k' = k
      · subst hk
        simp only [List.filter_cons, ne_eq, not_true_eq_false, decide_false, Bool.false_eq_true, if_false]
        rw [List.lookup_cons, show (r == k') = false by simpa using hrk]
        exact ih
      · simp only [List.filter_cons, ne_eq, hk, not_false_eq_true, decide_true, if_true, List.lookup_cons]
        split
        · rfl
        · exact ih

/-- What a rebuilt map holds comes from one of its rows. -/
theorem of_lookup_foldl (h : (rows.foldl (fun m a => m.insert (f a) (g a)) map).lookup r = some v) :
    (∃ a ∈ rows, f a = r ∧ g a = v) ∨ map.lookup r = some v := by
  induction rows generalizing map with
  | nil => exact Or.inr h
  | cons a rows ih =>
    obtain ⟨b, hb, hkey⟩ | hmap := ih h
    · exact Or.inl ⟨b, List.mem_cons_of_mem _ hb, hkey⟩
    · rw [lookup_insert] at hmap
      split at hmap
      · rename_i hr
        exact Or.inl ⟨a, List.mem_cons_self, hr.symm, Option.some.inj hmap⟩
      · exact Or.inr hmap

/-- And it holds something for every row. -/
theorem lookup_foldl (h : (∃ a ∈ rows, f a = r) ∨ ∃ v, map.lookup r = some v) :
    ∃ v, (rows.foldl (fun m a => m.insert (f a) (g a)) map).lookup r = some v := by
  induction rows generalizing map with
  | nil =>
    obtain ⟨a, ha, _⟩ | hv := h
    · cases ha
    · exact hv
  | cons a rows ih =>
    refine ih ?_
    by_cases hr : r = f a
    · exact Or.inr ⟨g a, by rw [lookup_insert, if_pos hr]⟩
    · obtain ⟨b, hb, hkey⟩ | ⟨v, hv⟩ := h
      · rcases List.mem_cons.1 hb with rfl | hb
        · exact absurd hkey.symm hr
        · exact Or.inl ⟨b, hb, hkey⟩
      · exact Or.inr ⟨v, by rw [lookup_insert, if_neg hr]; exact hv⟩

end Snapshot

section

variable {W : Type} (U : Upstream W) (cfg : Config) (sk : Secret) (db : Db)

/-- What the snapshot query of a derived invoice selects. -/
def derivedRows : List (String × Option String) :=
  (db.invoice.select fun inv => inv.openIn cfg.matchMode .derived).map fun inv => (inv.id, inv.recipientPubkey)

/-- The assignments in the watch window. -/
def watchedRows : List Endpub :=
  db.endpub.select fun ep =>
    (db.user.get ep.userId).any fun u => u.epoch.toInt - (max cfg.endpubOverlapEpochs 0).toInt ≤ ep.epoch.toInt

/-- The snapshot a start without failures builds. -/
def snapshotOf : Snapshot :=
  (watchedRows cfg db).foldl (Directory.insertEndpub U sk) ((derivedRows cfg db).foldl (Directory.insertInvoice U sk) [])

/-- The keys the directory has for a recipient. -/
def heldKeys (map : Snapshot) (recipient : String) : Option Secret :=
  if recipient = U.xonlyHex sk then some sk else (map.lookup recipient).bind (Directory.keysFromSecret U)

/-- The server still holds the identity `recipient`: it is the master key, the key of an invoice
that is open and derived, or an endpub in its watch window. -/
def Holds (recipient : String) : Prop :=
  recipient = U.xonlyHex sk ∨
  (∃ inv ∈ db.invoice.rows, inv.recipientPubkey = some recipient ∧ inv.status = .open ∧
    inv.effectiveMode cfg.matchMode = .derived) ∨
  ∃ ep ∈ db.endpub.rows, ep.pubkey = recipient ∧ ∃ u, db.user.get ep.userId = some u ∧
    u.epoch.toInt - (max cfg.endpubOverlapEpochs 0).toInt ≤ ep.epoch.toInt

variable {U cfg sk db} {r : String} {keys : Secret}

theorem Keyed.invoice_secret (hk : Keyed U sk db) {inv : Invoice} (hi : inv ∈ db.invoice.rows)
    (hr : inv.recipientPubkey = some r) (hne : r ≠ U.xonlyHex sk) :
    U.xonlyHex (Derive.invoiceSecret U sk inv.id) = r := by
  have hget := Table.get_of_mem hi
  obtain h | h := hk.invoice _ _ hget
  · rw [hr] at h
    exact absurd (Option.some.inj h) hne
  · rw [hr] at h
    exact (Option.some.inj h).symm

theorem Directory.keysFromSecret_eq_some {v : Secret} (h : Directory.keysFromSecret U v = some keys) : v = keys := by
  unfold Directory.keysFromSecret at h
  split at h
  · exact Option.some.inj h
  · cases h

/-- The directory's keys for a recipient are the recipient's keys. -/
theorem heldKeys_eq_some (hk : Keyed U sk db) (h : heldKeys U sk (snapshotOf U cfg sk db) r = some keys) :
    U.xonlyHex keys = r ∧ Holds U cfg sk db r := by
  unfold heldKeys at h
  split at h
  · rename_i hr
    obtain rfl : sk = keys := Option.some.inj h
    exact ⟨hr.symm, Or.inl hr⟩
  · rename_i hr
    obtain ⟨v, hv, hscalar⟩ := Option.bind_eq_some_iff.1 h
    obtain rfl := Directory.keysFromSecret_eq_some hscalar
    obtain ⟨ep, hep, hkey, hsecret⟩ | hv := Snapshot.of_lookup_foldl (f := Endpub.pubkey) hv
    · obtain ⟨hget, hwatch⟩ := Table.mem_select.1 hep
      have hpub := hk.endpub _ _ hget
      obtain ⟨u, hu, hepoch⟩ := (Option.any_eq_true _ _).1 hwatch
      refine ⟨?_, Or.inr (Or.inr ⟨ep, Table.mem_of_get hget, hkey, u, hu, by simpa using hepoch⟩)⟩
      rw [← hsecret, ← hkey, hpub]
      rfl
    · obtain ⟨row, hrow, hkey, hsecret⟩ | hv := Snapshot.of_lookup_foldl
        (f := fun row : String × Option String => row.2.getD (Derive.invoicePubkeyHex U sk row.1)) hv
      · obtain ⟨inv, hinv, rfl⟩ := List.mem_map.1 hrow
        obtain ⟨hget, hopen⟩ := Table.mem_select.1 hinv
        have hmem := Table.mem_of_get hget
        obtain ⟨recipient, hrecipient⟩ : ∃ recipient, inv.recipientPubkey = some recipient :=
          (hk.invoice _ _ hget).elim (fun h => ⟨_, h⟩) fun h => ⟨_, h⟩
        have hr' : inv.recipientPubkey = some r := by
          simp only [hrecipient, Option.getD_some] at hkey
          rw [hrecipient, hkey]
        refine ⟨?_, Or.inr (Or.inl ⟨inv, hmem, hr', ?_⟩)⟩
        · rw [← hsecret]
          exact hk.invoice_secret hmem hr' hr
        · simpa [Invoice.openIn] using hopen
      · cases hv

/-- A map that is rebuilt from rows has keys for every identity the rows name. -/
theorem held_of_rows (hs : Derive.Samples U) (endpubs : List Endpub) {rows : List (String × Option String)}
    (h : (∃ ep ∈ endpubs, ep.pubkey = r) ∨ ∃ row ∈ rows, row.2.getD (Derive.invoicePubkeyHex U sk row.1) = r) :
    ∃ keys, ((endpubs.foldl (Directory.insertEndpub U sk) (rows.foldl (Directory.insertInvoice U sk) [])).lookup r).bind
      (Directory.keysFromSecret U) = some keys := by
  have found : ∃ v, (endpubs.foldl (Directory.insertEndpub U sk) (rows.foldl (Directory.insertInvoice U sk) [])).lookup r = some v := by
    refine Snapshot.lookup_foldl (f := Endpub.pubkey) (h.imp id fun named => ?_)
    exact Snapshot.lookup_foldl (f := fun row : String × Option String => row.2.getD (Derive.invoicePubkeyHex U sk row.1)) (Or.inl named)
  obtain ⟨v, hv⟩ := found
  have hscalar : U.isScalar v = true := by
    obtain ⟨ep, _, _, rfl⟩ | hv := Snapshot.of_lookup_foldl (f := Endpub.pubkey) hv
    · exact Derive.isScalar_childSecret hs _ _
    · obtain ⟨row, _, _, rfl⟩ | hv := Snapshot.of_lookup_foldl
        (f := fun row : String × Option String => row.2.getD (Derive.invoicePubkeyHex U sk row.1)) hv
      · exact Derive.isScalar_childSecret hs _ _
      · cases hv
  refine ⟨v, ?_⟩
  unfold Directory.keysFromSecret
  rw [hv]
  simp [hscalar]

theorem named_of_open {mode : MatchMode} {inv : Invoice} (hinv : inv ∈ db.invoice.rows) (hrecipient : inv.recipientPubkey = some r)
    (hopen : inv.status = .open) (hmode : inv.effectiveMode mode = .derived) :
    ∃ row ∈ (db.invoice.select fun inv => inv.openIn mode .derived).map fun inv => (inv.id, inv.recipientPubkey),
      row.2.getD (Derive.invoicePubkeyHex U sk row.1) = r := by
  refine ⟨(inv.id, inv.recipientPubkey), List.mem_map.2 ⟨inv, List.mem_filter.2 ⟨hinv, ?_⟩, rfl⟩, ?_⟩
  · simp [Invoice.openIn, hopen, hmode]
  · simp [hrecipient]

theorem named_of_watched {overlap : Int64} {ep : Endpub} (hep : ep ∈ db.endpub.rows) (hpub : ep.pubkey = r) {u : User}
    (hu : db.user.get ep.userId = some u) (hepoch : u.epoch.toInt - overlap.toInt ≤ ep.epoch.toInt) :
    ∃ ep ∈ db.endpub.select fun ep => (db.user.get ep.userId).any fun u => u.epoch.toInt - overlap.toInt ≤ ep.epoch.toInt,
      ep.pubkey = r := by
  refine ⟨ep, List.mem_filter.2 ⟨hep, ?_⟩, hpub⟩
  rw [hu]
  simpa using hepoch

/-- And it has keys for every identity the server holds. -/
theorem heldKeys_of_holds (hs : Derive.Samples U) (h : Holds U cfg sk db r) :
    ∃ keys, heldKeys U sk (snapshotOf U cfg sk db) r = some keys := by
  by_cases hr : r = U.xonlyHex sk
  · exact ⟨sk, if_pos hr⟩
  · have named : (∃ ep ∈ watchedRows cfg db, ep.pubkey = r) ∨
        ∃ row ∈ derivedRows cfg db, row.2.getD (Derive.invoicePubkeyHex U sk row.1) = r := by
      obtain h | ⟨inv, hinv, hrecipient, hopen, hmode⟩ | ⟨ep, hep, hpub, u, hu, hepoch⟩ := h
      · exact absurd h hr
      · exact Or.inr (named_of_open hinv hrecipient hopen hmode)
      · exact Or.inl (named_of_watched hep hpub hu hepoch)
    obtain ⟨keys, hkeys⟩ := held_of_rows hs _ named
    exact ⟨keys, by rw [heldKeys, if_neg hr]; exact hkeys⟩

end

end GoblinPay
