import CashWallet.Ledger.Fees
import CashWallet.Ledger.HistoryEntry
import CashWallet.Proofs.Json.ReadBack
import CashWallet.Proofs.Ledger.Fields
import CashWallet.Transaction.Basic

/-!
# Canonical data are read back from JSON

A record is written as its fields, each once and under its own name, so each name finds its field.
Unspent outputs, entries of the history and fee rates are therefore read back as they were written.
-/

namespace CashWallet

namespace Record

variable {α : Type} {names : List String} {values : List α} {others : List (String × α)}

theorem filter_eq_nil_of_unnamed {name : String} {members : List (String × α)}
    (h : name ∉ members.map Prod.fst) : members.filter (·.1 == name) = [] := by
  rw [List.filter_eq_nil_iff]
  intro m hm hequal
  rw [beq_iff_eq] at hequal
  exact h (List.mem_map.2 ⟨m, hm, hequal⟩)

/-- Among distinct names and members of other names, each name finds its own value and no other. -/
theorem find?_zip (hnames : (names ++ others.map Prod.fst).Nodup)
    (hlength : names.length = values.length) :
    (names.map fun name => ((names.zip values ++ others).find? (·.1 == name)).map Prod.snd) =
        values.map some ∧
      ∀ name ∈ names, ((names.zip values ++ others).filter (·.1 == name)).length = 1 := by
  induction names generalizing values with
  | nil =>
      rw [List.length_nil, eq_comm, List.length_eq_zero_iff] at hlength
      subst hlength
      exact ⟨rfl, nofun⟩
  | cons n names ih =>
      cases values with
      | nil => cases hlength
      | cons v values =>
          have hlength' := Nat.succ.inj hlength
          obtain ⟨hfresh, htail⟩ := List.nodup_cons.1 hnames
          obtain ⟨hfind, hfilter⟩ := ih htail hlength'
          have hunnamed : n ∉ (names.zip values ++ others).map Prod.fst := by
            rwa [List.map_append, List.map_fst_zip hlength'.le]
          have hne : ∀ name ∈ names, (n == name) = false := by
            intro name hname
            rw [beq_eq_false_iff_ne]
            rintro rfl
            exact hfresh (List.mem_append_left _ hname)
          constructor
          · rw [List.map_cons, List.map_cons, ← hfind]
            congr 1
            · simp
            · apply List.map_congr_left
              intro name hname
              rw [List.zip_cons_cons, List.cons_append, List.find?_cons, hne name hname]
          · intro name hname
            rw [List.zip_cons_cons, List.cons_append, List.filter_cons]
            rcases List.mem_cons.1 hname with rfl | hname
            · simp [filter_eq_nil_of_unnamed hunnamed]
            · simpa [hne name hname] using hfilter name hname

/-- The fields of a record stand under their names, whatever else stands behind them. -/
theorem ofMembers?_zip (values : List α) (others : List (String × α))
    (hnames : (names ++ others.map Prod.fst).Nodup) (hlength : names.length = values.length) :
    ofMembers? names (names.zip values ++ others) = some ⟨false, values.map some⟩ := by
  obtain ⟨hfind, hfilter⟩ := find?_zip hnames hlength
  have honce : names.all (fun name =>
      decide (((names.zip values ++ others).filter (·.1 == name)).length ≤ 1)) = true := by
    rw [List.all_eq_true]
    intro name hname
    rw [hfilter name hname]
    rfl
  rw [ofMembers?, if_pos honce, hfind]

end Record

namespace Json

theorem uint32?_ofUInt32 (n : UInt32) : uint32? (.ofUInt32 n) = some n := by
  have hsize : n.toUInt64.toNat < UInt32.size := by
    rw [UInt32.toNat_toUInt64]
    exact n.toNat_lt
  rw [ofUInt32, uint32?, if_pos hsize, UInt32.toNat_toUInt64, UInt32.ofNat_toNat]

theorem list?_map {α : Type} {encode : α → Json} {decode : Json → Option α}
    (h : ∀ a, decode (encode a) = some a) (as : List α) :
    list? decode (.array (as.map encode)) = some as := by
  rw [list?]
  induction as with
  | nil => rfl
  | cons a as ih =>
      rw [List.map_cons, List.mapM_cons, h, ih]
      rfl

theorem isIntegral_map {α : Type} {encode : α → Json} (h : ∀ a, (encode a).isIntegral = true)
    (as : List α) : (Json.array (as.map encode)).isIntegral = true := by
  change isIntegralItems (as.map encode) = true
  induction as with
  | nil => rfl
  | cons a as ih =>
      rw [List.map_cons, isIntegralItems, h, ih]
      rfl

end Json

theorem TxId.ofJson?_toJson (id : TxId) : ofJson? id.toJson = some id := by
  have hlength : id.bytes.reverse.length = 32 := by rw [List.length_reverse, id.length_bytes]
  have hread : ofHex id.toHex = .ok id := by
    rw [toHex, ofHex_encode hlength]
    simp only [List.reverse_reverse]
  rw [ofJson?, toJson, Json.string?, Option.bind_some, hread]
  rfl

theorem Script.ofJson?_toJson (script : Script) : ofJson? script.toJson = some script := by
  rw [ofJson?, toJson, Json.string?, Option.bind_some, ofHex_toHex]
  rfl

theorem Outpoint.ofJson?_toJson (o : Outpoint) : ofJson? o.toJson = some o := by
  have hrecord : o.toJson.record? ["hash", "index"] =
      some ⟨false, [some o.txid.toJson, some (.ofUInt32 o.index)]⟩ :=
    Record.ofMembers?_zip [_, _] [] (by decide) rfl
  simp [ofJson?, hrecord, Record.required, Record.slot, TxId.ofJson?_toJson, Json.uint32?_ofUInt32]

theorem Output.ofJson?_toJson (o : Output) : ofJson? o.toJson = some o := by
  have hrecord : o.toJson.record? ["value", "locking_script"] =
      some ⟨false, [some (.ofUInt64 o.value), some o.script.toJson]⟩ :=
    Record.ofMembers?_zip [_, _] [] (by decide) rfl
  simp [ofJson?, hrecord, Record.required, Record.slot, Script.ofJson?_toJson, Json.ofUInt64,
    Json.uint64?]

namespace Unspent

theorem ofJson?_toJson (u : Unspent) : ofJson? u.toJson = some u := by
  have hrecord : u.toJson.record? ["output", "outpoint"] =
      some ⟨false, [some u.output.toJson, some u.outpoint.toJson]⟩ :=
    Record.ofMembers?_zip [_, _] [] (by decide) rfl
  simp [ofJson?, hrecord, Record.required, Record.slot, Output.ofJson?_toJson,
    Outpoint.ofJson?_toJson]

theorem isIntegral_toJson (u : Unspent) : u.toJson.isIntegral = true := rfl

end Unspent

theorem Direction.choice?_name (d : Direction) :
    Json.choice? named (.string d.name) = some d := by
  cases d <;> decide

namespace HistoryEntry

theorem ofJson?_toJson (e : HistoryEntry) : ofJson? e.toJson = some e := by
  have hrecord : e.toJson.record?
      ["timestamp", "direction", "hash", "from", "to", "value", "confirmations"] =
      some ⟨false, [some (.string e.timestamp), some (.string e.direction.name),
        some (.string e.hash), some (.string e.sender), some (.string e.recipient),
        some (.ofUInt64 e.value), some (.ofUInt64 e.confirmations)]⟩ :=
    Record.ofMembers?_zip [_, _, _, _, _, _, _] [] (by decide) rfl
  simp [ofJson?, hrecord, Record.required, Record.slot, Json.string?, Direction.choice?_name,
    Json.ofUInt64, Json.uint64?]

theorem isIntegral_toJson (e : HistoryEntry) : e.toJson.isIntegral = true := rfl

end HistoryEntry

namespace Fees

theorem ofJson?_toJson (f : Fees) : ofJson? f.toJson = some f := by
  have hrecord : f.toJson.record? ["fastestFee", "halfHourFee", "hourFee"] =
      some ⟨false, [some (.ofUInt64 f.fastest), some (.ofUInt64 f.halfHour),
        some (.ofUInt64 f.hour)]⟩ :=
    Record.ofMembers?_zip [_, _, _] [] (by decide) rfl
  simp [ofJson?, hrecord, Record.required, Record.slot, Json.ofUInt64, Json.uint64?]

theorem isIntegral_toJson (f : Fees) : f.toJson.isIntegral = true := rfl

end Fees

end CashWallet
