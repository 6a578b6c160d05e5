import CashWallet.Proofs.Bytes.HexText
import CashWallet.Proofs.Wallet.Calls

/-!
# Wallets that share a directory

The folder of a wallet is named by the compressed form of its public key. Names of folders hold
letters and digits only, so a path tells which folder it leads into, and what is written in one
folder leaves the files of all others alone. Wallets of different public keys therefore never see
what the others fetched. Wallets of one public key share a folder, although their addresses differ
if their networks or the forms of their keys do.
-/

namespace CashWallet

namespace WalletId

variable {id other : WalletId}

theorem takeWhile_path (id : WalletId) (key : String) :
    (id.path key).toList.takeWhile Char.isAlphanum = id.text.toList := by
  have halphanumeric : ∀ c ∈ id.text.toList, Char.isAlphanum c = true :=
    List.all_eq_true.1 id.alphanumeric
  have hpath : (id.path key).toList = id.text.toList ++ '/' :: (key ++ ".json").toList := by
    simp [path, String.toList_append]
  rw [hpath, List.takeWhile_append_of_pos halphanumeric, List.takeWhile_cons_of_neg (by decide),
    List.append_nil]

/-- Files of different folders have different paths. -/
theorem path_ne (h : other ≠ id) (name name' : String) : other.path name ≠ id.path name' := by
  intro hpath
  have htext := congrArg (fun p => p.toList.takeWhile Char.isAlphanum) hpath
  simp only [takeWhile_path] at htext
  obtain ⟨text, hfilled, halphanumeric⟩ := id
  obtain ⟨text', hfilled', halphanumeric'⟩ := other
  cases String.toList_inj.1 htext
  exact h rfl

end WalletId

namespace CacheStore

/-- A store over a folder, among files that differ from the given ones in that folder at most. -/
def InFolder (id : WalletId) (files : Entries) (s : CacheStore) : Prop :=
  ∃ files', s = folder id files' ∧ ∀ other key, other ≠ id →
    files'.get? (other.path key) = files.get? (other.path key)

variable {id : WalletId} {files : Entries} {s s' : CacheStore}

theorem InFolder.set (h : InFolder id files s) {key : String} {bytes : Bytes}
    (hset : s.set key bytes = .ok s') : InFolder id files s' := by
  obtain ⟨files', rfl, hfiles⟩ := h
  cases hset
  refine ⟨_, rfl, ?_⟩
  intro other name hother
  rw [Entries.get?_put_of_ne (WalletId.path_ne hother name key), hfiles other name hother]

theorem InFolder.written (h : InFolder id files s) (hwritten : s.Written s') :
    InFolder id files s' := by
  induction hwritten with
  | refl => exact h
  | tail _ hset ih =>
      obtain ⟨key, bytes, hset⟩ := hset
      exact ih.set hset

end CacheStore

namespace Wallet

open CacheStore (InFolder)

namespace Session

theorem after_written (s : Session) (calls : List Call) :
    s.wallet.store.Written (s.after calls).wallet.store := by
  induction calls generalizing s with
  | nil => exact .refl
  | cons c calls ih => exact (s.step_moves c).written.trans (ih (s.step c))

end Session

/-! ## Wallets of one directory -/

/-- The folder of a wallet, by its key. -/
def folderId (key : PrivateKey) : WalletId where
  text := folderName key
  ne_empty := by
    have hfilled := Hex.encode_filled (List.cons_ne_nil _ _ : key.publicKey.toCompressed ≠ [])
    rwa [String.isEmpty_iff, ← String.toList_inj] at hfilled
  alphanumeric := Hex.encode_alphanumeric _

theorem folderId_inj {key key' : PrivateKey} :
    folderId key = folderId key' ↔ key.publicKey.toCompressed = key'.publicKey.toCompressed := by
  rw [WalletId.mk.injEq]
  exact Hex.encode_inj

/-- With a directory, every key has a wallet, over the folder of that key. -/
theorem openIn_folder (files : Entries) (key : PrivateKey) {config : WalletConfig}
    {directory : String} (h : config.cacheDir = some directory) :
    openIn files key config = .ok (ofStore key config (.folder (folderId key) files)) := by
  have hid : WalletId.ofString (folderName key) = .ok (folderId key) :=
    dif_pos ⟨(folderId key).ne_empty, (folderId key).alphanumeric⟩
  rw [openIn, h]
  simp only [hid]
  rfl

theorem store_seeing {w : Wallet} {id : WalletId} {files : Entries} (h : w.store = .folder id files)
    (files' : Entries) : (w.seeing files').store = .folder id files' := by
  rw [seeing, h]
  rfl

/-- A wallet over a folder tells what the files of that folder say. -/
theorem view_seeing {w : Wallet} {id : WalletId} {files files' : Entries}
    (h : w.store = .folder id files)
    (hfiles : ∀ key, files'.get? (id.path key) = files.get? (id.path key)) :
    (w.seeing files').view = w.view := by
  apply view_eq_of_entries
  intro key
  rw [store_seeing h, h, CacheStore.entry?, CacheStore.entry?, CacheStore.get, CacheStore.get,
    hfiles]

/-- Two wallets are opened under one directory, and the first is used in any way. If their public
keys differ, the second tells what it told before. If they do not, it tells what the first tells,
whatever the addresses are. -/
theorem openIn_apart (files : Entries) (key key' : PrivateKey) {config config' : WalletConfig}
    {directory : String} (hdirectory : config.cacheDir = some directory)
    (hdirectory' : config'.cacheDir = some directory) :
    ∃ a b, openIn files key config = .ok a ∧ openIn files key' config' = .ok b ∧
      ∀ calls : List Call,
        let a' := ((Session.start a).after calls).wallet
        (key.publicKey.toCompressed ≠ key'.publicKey.toCompressed →
          (b.seeing a'.store.files).view = b.view) ∧
        (key.publicKey.toCompressed = key'.publicKey.toCompressed →
          (b.seeing a'.store.files).view = a'.view) := by
  refine ⟨_, _, openIn_folder files key hdirectory, openIn_folder files key' hdirectory', ?_⟩
  intro calls a'
  have hstart : InFolder (folderId key) files (.folder (folderId key) files) :=
    ⟨files, rfl, fun _ _ _ => rfl⟩
  obtain ⟨files', hstore, hfiles⟩ : InFolder (folderId key) files a'.store :=
    hstart.written (Session.after_written (.start (ofStore key config _)) calls)
  rw [hstore]
  constructor
  · intro hne
    apply view_seeing rfl
    intro name
    apply hfiles
    intro hid
    exact hne (folderId_inj.1 hid).symm
  · intro hsame
    apply view_eq_of_store
    rw [store_seeing rfl, hstore, folderId_inj.2 hsame]
    rfl

/-- A configuration with a directory, for either network. -/
def underWallets (network : Network) : WalletConfig :=
  { ledger := { network }, cacheDir := some "wallets" }

def otherKey : PrivateKey := { scalar := 2, scalar_pos := by decide, scalar_lt := by decide }

/-- The balance is reloaded, and the backend tells one. -/
def balanceTold : Call := ⟨.reload .balance, fun _ => .reply 200 "\x7b\"balanceSat\":7\x7d"⟩

theorem openIn_apart_reloaded : ∃ a b, openIn [] fresh.key (underWallets .mainnet) = .ok a ∧
    openIn [] otherKey (underWallets .mainnet) = .ok b ∧
    (b.seeing ((Session.start a).after [balanceTold]).wallet.store.files).view = b.view := by
  obtain ⟨a, b, ha, hb, h⟩ :=
    @openIn_apart [] fresh.key otherKey (underWallets .mainnet) (underWallets .mainnet) _ rfl rfl
  obtain ⟨hapart, -⟩ := h [balanceTold]
  exact ⟨a, b, ha, hb, hapart (by decide +kernel)⟩

/-- So it is not the address that keeps wallets apart: a key has one folder on both networks. -/
theorem openIn_apart_networks : ¬ ∀ (files : Entries) (key key' : PrivateKey)
    (config config' : WalletConfig) (directory : String) (a b : Wallet) (calls : List Call),
    config.cacheDir = some directory → config'.cacheDir = some directory →
    openIn files key config = .ok a → openIn files key' config' = .ok b →
    (a.address == b.address) = false →
    (b.seeing ((Session.start a).after calls).wallet.store.files).balance = b.balance := by
  intro h
  have hshared := h [] fresh.key fresh.key (underWallets .mainnet) (underWallets .testnet) "wallets"
    _ _ [balanceTold] rfl rfl (openIn_folder [] fresh.key rfl) (openIn_folder [] fresh.key rfl)
    (by decide +kernel)
  exact absurd hshared (by decide +kernel)

end Wallet

end CashWallet
