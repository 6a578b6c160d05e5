import CashWallet.Proofs.Ledger.Unspents

/-!
# Both backends tell the same ledger

The documents of the two backends differ in the names of their members, in the unit of their
amounts, in how an address stands there and in whether a script does. An item is decoded from its
fields in one way; each backend is left to show that the pointers of its schema lead to the fields.
The lists follow item by item.
-/

namespace CashWallet.Ledger

open Json

variable {address : Address} {entry : Listing} {tx : LedgerTransaction} {output : LedgerOutput}
  {item : Json}

/-! ## Items from their fields -/

theorem decodeUnspent_eq {m : UnspentMapping} (hobject : item.isObject)
    (horder : m.hashOrder = .display)
    (htxid : item.present? m.txid = some (.string (Hex.encode entry.shown)))
    (hindex : item.present? m.index = some (.ofUInt32 entry.index))
    (hvalue : amount m.unit (item.present? m.value) = .ok entry.value)
    (hscript : scriptOf item m.script address.lock = .ok address.lock) :
    decodeUnspent m address.lock item = .ok (entry.unspent address) := by
  have hid : decodeTxId (Hex.encode entry.shown) m.hashOrder =
      .ok (entry.unspent address).outpoint.txid := by
    rw [horder, decodeTxId, TxId.ofHex_encode entry.length_shown]
    rfl
  refine decodeUnspent_eq_ok_iff.2 ⟨hobject, ⟨_, ?_, hid⟩, ?_, hvalue, hscript⟩
  · rw [htxid]
    rfl
  · rw [hindex]
    rfl

theorem decodeOutput_eq {m : HistoryMapping}
    (haddresses : addresses (item.present? m.outputAddresses) = .ok output.addresses)
    (hvalue : amount m.unit (item.present? m.outputValue) = .ok output.value) :
    decodeOutput m item = .ok output := by
  rw [decodeOutput, haddresses, Results.ok_bind, hvalue]
  rfl

/-- The pointers of a mapping lead to the members with some names. -/
structure Leads (m : HistoryMapping) (names : HistoryNames) : Prop where
  list : pointerTokens? m.list = some [names.list]
  hash : pointerTokens? m.hash = some [names.hash]
  timestamp : pointerTokens? m.timestamp = some [names.timestamp]
  confirmations : pointerTokens? m.confirmations = some [names.confirmations]
  inputs : pointerTokens? m.inputs = some [names.inputs]
  inputAddresses : pointerTokens? m.inputAddresses = some [names.inputAddresses]
  outputs : pointerTokens? m.outputs = some [names.outputs]

/-- A transaction is decoded as it is told, if its outputs are. -/
theorem decodeTransaction_of_tells {m : HistoryMapping} {names : HistoryNames}
    {TellsOutput : LedgerOutput → Json → Prop} (hleads : Leads m names)
    (houtput : ∀ output item, TellsOutput output item → decodeOutput m item = .ok output)
    (h : TellsTransaction names TellsOutput tx item) : decodeTransaction m item = .ok tx := by
  have hobject := h.hash.isObject
  obtain ⟨_, hhash, rfl⟩ := h.hash.found m.hash hleads.hash nofun
  obtain ⟨_, htimestamp, htime⟩ := h.timestamp.found m.timestamp hleads.timestamp nofun
  obtain ⟨_, hconfirmations, rfl⟩ :=
    h.confirmations.found m.confirmations hleads.confirmations nofun
  obtain ⟨inputs, hinputs, heachInput⟩ := optionalList_of_tells h.inputs m.inputs hleads.inputs
  obtain ⟨outputs, houtputs, heachOutput⟩ :=
    optionalList_of_tells h.outputs m.outputs hleads.outputs
  have hinputSets : inputs.mapM (fun input => addresses (input.present? m.inputAddresses)) =
      .ok tx.inputs := by
    rw [← List.map_id tx.inputs]
    apply Results.mapM_of_forall₂ heachInput
    intro shown input hinput
    obtain ⟨_, hfound, hshown⟩ :=
      hinput.found m.inputAddresses hleads.inputAddresses TellsAddresses.not_null
    rw [hfound, addresses_of_tells hshown]
    rfl
  have houtputList : outputs.mapM (decodeOutput m) = .ok tx.outputs := by
    rw [← List.map_id tx.outputs]
    exact Results.mapM_of_forall₂ heachOutput houtput
  have hhashText : text (some (.string tx.hash)) = .ok tx.hash := rfl
  simp only [decodeTransaction, hobject, hinputs, hinputSets, houtputs, houtputList, hhash,
    hhashText, htimestamp, text_of_tells htime, hconfirmations, integer_ofUInt64, Results.ok_bind]
  rfl

/-- The history is decoded as it is told, if its outputs are. -/
theorem decodeHistory_of_tells {m : HistoryMapping} {names : HistoryNames}
    {TellsOutput : LedgerOutput → Json → Prop} {txs : List LedgerTransaction} {payload : Json}
    (hleads : Leads m names)
    (houtput : ∀ output item, TellsOutput output item → decodeOutput m item = .ok output)
    (h : TellsHistory names TellsOutput txs payload) : decodeHistory payload m = .ok txs := by
  obtain ⟨items, hlist, hitems⟩ := list_of_tells h m.list hleads.list
  rw [decodeHistory, hlist, Results.ok_bind, ← List.map_id txs]
  apply Results.mapM_of_forall₂ hitems
  intro tx item
  exact decodeTransaction_of_tells hleads houtput

/-! ## The backend that counts satoshis -/

namespace Blockcypher

variable (network : Network)

/-- A script that is left out is that of the address. -/
theorem scriptOf_of_tells (hobject : item.isObject) (h : TellsScript address item) :
    scriptOf item (some "/script") address.lock = .ok address.lock := by
  have htokens : pointerTokens? "/script" = some ["script"] := rfl
  rw [scriptOf_eq_ok_iff, Option.bind_some, pointer?_token htokens hobject]
  cases h with
  | absent script =>
      rw [script]
      exact ⟨"", rfl, rfl⟩
  | null script =>
      rw [script]
      exact ⟨"", rfl, rfl⟩
  | hex script =>
      have hfilled : address.lock.toHex ≠ "" := fun hempty =>
        Hex.encode_filled (List.cons_ne_nil _ _) (String.isEmpty_iff.2 hempty)
      rw [script]
      refine ⟨address.lock.toHex, .string, ?_⟩
      rw [TellsLock, if_neg hfilled, ← Script.ofHex_eq_ok_iff, Script.ofHex_toHex]

theorem decodeUnspent_of_tells (h : TellsUnspent address entry item) :
    decodeUnspent (Schema.blockcypher network).unspent address.lock item =
      .ok (entry.unspent address) := by
  have hobject := h.txid.isObject
  obtain ⟨_, htxid, rfl⟩ := h.txid.found "/tx_hash" rfl nofun
  obtain ⟨_, hindex, rfl⟩ := h.index.found "/tx_output_n" rfl nofun
  obtain ⟨_, hvalue, rfl⟩ := h.value.found "/value" rfl nofun
  have hamount : amount .satoshis (item.present? "/value") = .ok entry.value := by
    rw [hvalue]
    rfl
  exact decodeUnspent_eq hobject rfl htxid hindex hamount (scriptOf_of_tells hobject h.script)

theorem decodeUnspents_of_tells {entries : List Listing} {payload : Json}
    (h : TellsUnspents address entries payload) :
    decodeUnspents payload (Schema.blockcypher network).unspent address =
      .ok (entries.map (·.unspent address)) := by
  change (do (← optionalList payload "/txrefs").mapM _) = _
  cases h with
  | listed list =>
      obtain ⟨items, hlist, hitems⟩ := optionalList_of_tells list "/txrefs" rfl
      rw [hlist, Results.ok_bind]
      exact Results.mapM_of_forall₂ hitems fun entry item => decodeUnspent_of_tells network
  | omitted object list =>
      -- this backend may leave the list out; the other one may not
      have htokens : pointerTokens? "/txrefs" = some ["txrefs"] := rfl
      rw [optionalList, present?, pointer?_token htokens object, list]
      rfl

theorem decodeOutput_of_tells (h : TellsOutput output item) :
    decodeOutput (Schema.blockcypher network).history item = .ok output := by
  obtain ⟨_, hfound, haddresses⟩ := h.addresses.found "/addresses" rfl TellsAddresses.not_null
  obtain ⟨_, hvalue, rfl⟩ := h.value.found "/value" rfl nofun
  apply decodeOutput_eq
  · change addresses (item.present? "/addresses") = _
    rw [hfound, addresses_of_tells haddresses]
  · change amount .satoshis (item.present? "/value") = _
    rw [hvalue]
    rfl

theorem leads_history : Leads (Schema.blockcypher network).history names where
  list := (rfl : pointerTokens? "/txs" = some ["txs"])
  hash := (rfl : pointerTokens? "/hash" = some ["hash"])
  timestamp := (rfl : pointerTokens? "/received" = some ["received"])
  confirmations := (rfl : pointerTokens? "/confirmations" = some ["confirmations"])
  inputs := (rfl : pointerTokens? "/inputs" = some ["inputs"])
  inputAddresses := (rfl : pointerTokens? "/addresses" = some ["addresses"])
  outputs := (rfl : pointerTokens? "/outputs" = some ["outputs"])

theorem decodeHistory_of_tells {txs : List LedgerTransaction} {payload : Json}
    (h : TellsHistory txs payload) :
    decodeHistory payload (Schema.blockcypher network).history = .ok txs :=
  Ledger.decodeHistory_of_tells (leads_history network)
    (fun _ _ => decodeOutput_of_tells network) h

end Blockcypher

/-! ## The backend that counts coins -/

namespace BitcoinCom

variable (network : Network)

theorem decodeUnspent_of_tells (h : TellsUnspent entry item) :
    decodeUnspent (Schema.bitcoinCom network).unspent address.lock item =
      .ok (entry.unspent address) := by
  obtain ⟨_, htxid, rfl⟩ := h.txid.found "/txid" rfl nofun
  obtain ⟨_, hindex, rfl⟩ := h.index.found "/vout" rfl nofun
  obtain ⟨_, hvalue, rfl⟩ := h.value.found "/amount" rfl nofun
  have hamount : amount .coins (item.present? "/amount") = .ok entry.value := by
    rw [hvalue]
    exact coinsToSatoshis_coinText entry.value
  exact decodeUnspent_eq h.txid.isObject rfl htxid hindex hamount rfl

theorem decodeUnspents_of_tells {entries : List Listing} {payload : Json}
    (h : TellsUnspents entries payload) :
    decodeUnspents payload (Schema.bitcoinCom network).unspent address =
      .ok (entries.map (·.unspent address)) := by
  obtain ⟨items, hlist, hitems⟩ := list_of_tells h "/utxos" rfl
  change (do (← list payload "/utxos").mapM _) = _
  rw [hlist, Results.ok_bind]
  exact Results.mapM_of_forall₂ hitems fun entry item => decodeUnspent_of_tells network

theorem decodeOutput_of_tells (h : TellsOutput output item) :
    decodeOutput (Schema.bitcoinCom network).history item = .ok output := by
  obtain ⟨_, hfound, haddresses⟩ :=
    h.addresses.found_inner "/scriptPubKey/addresses" rfl TellsAddresses.not_null
  obtain ⟨_, hvalue, rfl⟩ := h.value.found "/value" rfl nofun
  apply decodeOutput_eq
  · change addresses (item.present? "/scriptPubKey/addresses") = _
    rw [hfound, addresses_of_tells haddresses]
  · change amount .coins (item.present? "/value") = _
    rw [hvalue]
    exact coinsToSatoshis_coinText output.value

theorem leads_history : Leads (Schema.bitcoinCom network).history names where
  list := (rfl : pointerTokens? "/txs" = some ["txs"])
  hash := (rfl : pointerTokens? "/txid" = some ["txid"])
  timestamp := (rfl : pointerTokens? "/time" = some ["time"])
  confirmations := (rfl : pointerTokens? "/confirmations" = some ["confirmations"])
  inputs := (rfl : pointerTokens? "/vin" = some ["vin"])
  inputAddresses := (rfl : pointerTokens? "/addr" = some ["addr"])
  outputs := (rfl : pointerTokens? "/vout" = some ["vout"])

theorem decodeHistory_of_tells {txs : List LedgerTransaction} {payload : Json}
    (h : TellsHistory txs payload) :
    decodeHistory payload (Schema.bitcoinCom network).history = .ok txs :=
  Ledger.decodeHistory_of_tells (leads_history network)
    (fun _ _ => decodeOutput_of_tells network) h

end BitcoinCom

/-! ## One ledger, told twice -/

theorem tells_map {α : Type} {R : α → Json → Prop} (entries : List α) {toItem : α → Json}
    (h : ∀ entry, R entry (toItem entry)) : Tells R entries (.array (entries.map toItem)) := by
  refine ⟨_, rfl, ?_⟩
  rw [List.forall₂_map_right_iff, List.forall₂_same]
  intro entry _
  exact h entry

/-- Every ledger has a document of the one backend. -/
theorem Blockcypher.documents_tell (address : Address) (entries : List Listing)
    (txs : List LedgerTransaction) :
    TellsUnspents address entries (unspentsDocument entries) ∧
      TellsHistory txs (historyDocument txs) := by
  constructor
  · apply TellsUnspents.listed
    refine ⟨_, rfl, tells_map entries ?_⟩
    intro entry
    exact ⟨⟨_, rfl, rfl⟩, ⟨_, rfl, rfl⟩, ⟨_, rfl, rfl⟩, .absent rfl⟩
  · refine ⟨_, rfl, tells_map txs ?_⟩
    intro tx
    refine ⟨⟨_, rfl, rfl⟩, ⟨_, rfl, .string⟩, ⟨_, rfl, rfl⟩, ⟨_, rfl, tells_map tx.inputs ?_⟩,
      ⟨_, rfl, tells_map tx.outputs ?_⟩⟩
    · intro shown
      exact ⟨_, rfl, .array shown⟩
    · intro output
      exact ⟨⟨_, rfl, .array output.addresses⟩, ⟨_, rfl, rfl⟩⟩

/-- Every ledger has a document of the other backend. -/
theorem BitcoinCom.documents_tell (entries : List Listing) (txs : List LedgerTransaction) :
    TellsUnspents entries (unspentsDocument entries) ∧ TellsHistory txs (historyDocument txs) := by
  constructor
  · refine ⟨_, rfl, tells_map entries ?_⟩
    intro entry
    exact ⟨⟨_, rfl, rfl⟩, ⟨_, rfl, rfl⟩, ⟨_, rfl, rfl⟩⟩
  · refine ⟨_, rfl, tells_map txs ?_⟩
    intro tx
    refine ⟨⟨_, rfl, rfl⟩, ⟨_, rfl, .string⟩, ⟨_, rfl, rfl⟩, ⟨_, rfl, tells_map tx.inputs ?_⟩,
      ⟨_, rfl, tells_map tx.outputs ?_⟩⟩
    · intro shown
      exact ⟨_, rfl, .array shown⟩
    · intro output
      exact ⟨⟨_, rfl, _, rfl, .array output.addresses⟩, ⟨_, rfl, rfl⟩⟩

/-- What the two backends tell of one ledger is decoded to the same data, whatever network their
schemas are for: the unspent outputs in order, each with its value and with its id in the order of
the wire, and the history as any address sees it. -/
theorem decode_agrees (network network' : Network) (address : Address) (wallet : String)
    {entries : List Listing} {txs : List LedgerTransaction}
    {unspents unspents' history history' : Json}
    (hunspents : Blockcypher.TellsUnspents address entries unspents)
    (hunspents' : BitcoinCom.TellsUnspents entries unspents')
    (hhistory : Blockcypher.TellsHistory txs history)
    (hhistory' : BitcoinCom.TellsHistory txs history') :
    (decodeUnspents unspents (Schema.blockcypher network).unspent address =
        .ok (entries.map (·.unspent address)) ∧
      decodeUnspents unspents' (Schema.bitcoinCom network').unspent address =
        .ok (entries.map (·.unspent address))) ∧
    (decodeClassified history (Schema.blockcypher network).history wallet =
        .ok (txs.map (·.classify wallet)) ∧
      decodeClassified history' (Schema.bitcoinCom network').history wallet =
        .ok (txs.map (·.classify wallet))) := by
  refine ⟨⟨?_, ?_⟩, ?_, ?_⟩
  · exact Blockcypher.decodeUnspents_of_tells network hunspents
  · exact BitcoinCom.decodeUnspents_of_tells network' hunspents'
  · rw [decodeClassified, Blockcypher.decodeHistory_of_tells network hhistory]
    rfl
  · rw [decodeClassified, BitcoinCom.decodeHistory_of_tells network' hhistory']
    rfl

/-! ### A ledger with the greatest value -/

def sampleAddress : Address :=
  .ofKeyHash (List.replicate 20 7) .mainnet rfl

def sampleLock : String := "76a914070707070707070707070707070707070707070788ac"

def sampleHash : String := "000102030405060708090a0b0c0d0e0f101112131415161718191a1b1c1d1e1f"

/-- Two outputs of one transaction, with the greatest value and the least. -/
def sampleListings : List Listing :=
  [⟨(List.range 32).map UInt8.ofNat, rfl, 4294967295, 18446744073709551615⟩,
    ⟨(List.range 32).map UInt8.ofNat, rfl, 0, 1⟩]

def sampleTransactions : List LedgerTransaction :=
  [{ hash := sampleHash
     timestamp := "1700000000"
     confirmations := 3
     inputs := [["mine"], ["other"]]
     outputs := [⟨["mine", "shared"], 5⟩, ⟨["other"], 18446744073709551615⟩] }]

def sampleBlockcypherUnspents : Json :=
  .object [("txrefs", .array
    [.object [("tx_hash", .string sampleHash), ("tx_output_n", .ofUInt64 4294967295),
      ("value", .ofUInt64 18446744073709551615), ("spent", .bool false)],
    .object [("script", .string sampleLock), ("value", .ofUInt64 1), ("tx_output_n", .ofUInt64 0),
      ("tx_hash", .string sampleHash)]])]

def sampleBitcoinComUnspents : Json :=
  .object [("utxos", .array
    [.object [("txid", .string sampleHash), ("vout", .ofUInt64 4294967295),
      ("amount", .string "184467440737.09551615")],
    .object [("txid", .string sampleHash), ("vout", .ofUInt64 0),
      ("amount", .string "0.00000001")]])]

def sampleBlockcypherHistory : Json :=
  .object [("txs", .array
    [.object [("hash", .string sampleHash), ("received", .string "1700000000"),
      ("confirmations", .ofUInt64 3),
      ("inputs", .array
        [.object [("addresses", .array [.string "mine"])],
        .object [("addresses", .array [.string "other"])]]),
      ("outputs", .array
        [.object [("addresses", .array [.string "mine", .string "shared"]), ("value", .ofUInt64 5)],
        .object [("addresses", .array [.string "other"]),
          ("value", .ofUInt64 18446744073709551615)]])]])]

def sampleBitcoinComHistory : Json :=
  .object [("txs", .array
    [.object [("txid", .string sampleHash), ("time", .ofUInt64 1700000000),
      ("confirmations", .ofUInt64 3),
      ("vin", .array [.object [("addr", .string "mine")], .object [("addr", .string "other")]]),
      ("vout", .array
        [.object [("scriptPubKey",
            .object [("addresses", .array [.string "mine", .string "shared"])]),
          ("value", .string "0.00000005")],
        .object [("scriptPubKey", .object [("addresses", .array [.string "other"])]),
          ("value", .string "184467440737.09551615")]])]])]

theorem sampleUnspents_told :
    Blockcypher.TellsUnspents sampleAddress sampleListings sampleBlockcypherUnspents ∧
      BitcoinCom.TellsUnspents sampleListings sampleBitcoinComUnspents := by
  constructor
  · apply Blockcypher.TellsUnspents.listed
    refine ⟨_, rfl, _, rfl, .cons ?_ (.cons ?_ .nil)⟩
    · exact ⟨⟨_, rfl, rfl⟩, ⟨_, rfl, rfl⟩, ⟨_, rfl, rfl⟩, .absent rfl⟩
    · exact ⟨⟨_, rfl, rfl⟩, ⟨_, rfl, rfl⟩, ⟨_, rfl, rfl⟩, .hex rfl⟩
  · refine ⟨_, rfl, _, rfl, .cons ?_ (.cons ?_ .nil)⟩
    · exact ⟨⟨_, rfl, rfl⟩, ⟨_, rfl, rfl⟩, ⟨_, rfl, rfl⟩⟩
    · exact ⟨⟨_, rfl, rfl⟩, ⟨_, rfl, rfl⟩, ⟨_, rfl, rfl⟩⟩

theorem sampleHistory_told :
    Blockcypher.TellsHistory sampleTransactions sampleBlockcypherHistory ∧
      BitcoinCom.TellsHistory sampleTransactions sampleBitcoinComHistory := by
  constructor
  · refine ⟨_, rfl, _, rfl, .cons ?_ .nil⟩
    refine ⟨⟨_, rfl, rfl⟩, ⟨_, rfl, .string⟩, ⟨_, rfl, rfl⟩, ⟨_, rfl, _, rfl, ?_⟩,
      ⟨_, rfl, _, rfl, ?_⟩⟩
    · exact .cons ⟨_, rfl, .array ["mine"]⟩ (.cons ⟨_, rfl, .array ["other"]⟩ .nil)
    · apply List.Forall₂.cons ⟨⟨_, rfl, .array ["mine", "shared"]⟩, ⟨_, rfl, rfl⟩⟩
      exact .cons ⟨⟨_, rfl, .array ["other"]⟩, ⟨_, rfl, rfl⟩⟩ .nil
  · refine ⟨_, rfl, _, rfl, .cons ?_ .nil⟩
    refine ⟨⟨_, rfl, rfl⟩, ⟨_, rfl, .number _ rfl⟩, ⟨_, rfl, rfl⟩, ⟨_, rfl, _, rfl, ?_⟩,
      ⟨_, rfl, _, rfl, ?_⟩⟩
    · apply List.Forall₂.cons ⟨_, rfl, .single "mine" (by decide)⟩
      exact .cons ⟨_, rfl, .single "other" (by decide)⟩ .nil
    · apply List.Forall₂.cons ⟨⟨_, rfl, _, rfl, .array ["mine", "shared"]⟩, ⟨_, rfl, rfl⟩⟩
      exact .cons ⟨⟨_, rfl, _, rfl, .array ["other"]⟩, ⟨_, rfl, rfl⟩⟩ .nil

/-- The greatest value is read from an integer and from a text in coins. -/
theorem decode_agrees_greatest :
    (Blockcypher.TellsUnspents sampleAddress sampleListings sampleBlockcypherUnspents ∧
      BitcoinCom.TellsUnspents sampleListings sampleBitcoinComUnspents ∧
      Blockcypher.TellsHistory sampleTransactions sampleBlockcypherHistory ∧
      BitcoinCom.TellsHistory sampleTransactions sampleBitcoinComHistory) ∧
    (decodeUnspents sampleBlockcypherUnspents (Schema.blockcypher .mainnet).unspent sampleAddress =
        .ok (sampleListings.map (·.unspent sampleAddress)) ∧
      decodeUnspents sampleBitcoinComUnspents (Schema.bitcoinCom .testnet).unspent sampleAddress =
        .ok (sampleListings.map (·.unspent sampleAddress))) ∧
    decodeClassified sampleBlockcypherHistory (Schema.blockcypher .mainnet).history "mine" =
        .ok [⟨"1700000000", .outgoing, sampleHash, "other", "other", 18446744073709551615, 3⟩] ∧
      decodeClassified sampleBitcoinComHistory (Schema.bitcoinCom .testnet).history "mine" =
        .ok [⟨"1700000000", .outgoing, sampleHash, "other", "other", 18446744073709551615, 3⟩] := by
  obtain ⟨hunspents, hunspents'⟩ := sampleUnspents_told
  obtain ⟨hhistory, hhistory'⟩ := sampleHistory_told
  exact ⟨⟨hunspents, hunspents', hhistory, hhistory'⟩,
    decode_agrees .mainnet .testnet sampleAddress "mine" hunspents hunspents' hhistory hhistory'⟩

end CashWallet.Ledger
