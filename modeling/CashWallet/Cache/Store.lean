import CashWallet.Bytes.Basic
import CashWallet.Ledger.Error

/-!
# Stores of bytes by key

A store keeps bytes under keys: in memory, in the files of one wallet, or nowhere at all while it is
offline. The files of all wallets lie below one directory, each wallet in a folder named by its id.
-/

namespace CashWallet

/-- Bytes under distinct names. -/
abbrev Entries := List (String × Bytes)

namespace Entries

def get? (entries : Entries) (name : String) : Option Bytes :=
  entries.lookup name

def remove (entries : Entries) (name : String) : Entries :=
  entries.filter fun entry => entry.1 != name

def put (entries : Entries) (name : String) (value : Bytes) : Entries :=
  (name, value) :: entries.remove name

/-- All names in increasing order. -/
def names (entries : Entries) : List String :=
  (entries.map (·.1)).mergeSort fun a b => decide (a ≤ b)

/-- What is found among bindings from which a name has been removed. -/
theorem lookup_filter_ne {κ ν : Type} [DecidableEq κ] (entries : List (κ × ν)) (name other : κ) :
    (entries.filter fun entry => entry.1 != other).lookup name =
      if name = other then none else entries.lookup name := by
  induction entries with
  | nil => simp
  | cons entry entries ih =>
      obtain ⟨found, value⟩ := entry
      by_cases hfound : found = other
      · rw [List.filter_cons_of_neg (by simp [hfound]), ih]
        by_cases hname : name = other
        · rw [if_pos hname, if_pos hname]
        · have hne : (name == found) = false := by simp [hfound, hname]
          rw [if_neg hname, if_neg hname, List.lookup_cons, hne]
      · rw [List.filter_cons_of_pos (by simp [hfound])]
        by_cases hname : name = found
        · subst hname
          rw [List.lookup_cons_self, List.lookup_cons_self, if_neg hfound]
        · have hne : (name == found) = false := by simp [hname]
          rw [List.lookup_cons, List.lookup_cons, hne]
          exact ih

variable {entries : Entries} {name other : String}

theorem get?_put_self (value : Bytes) : (entries.put name value).get? name = some value :=
  List.lookup_cons_self

theorem get?_remove_of_ne (h : name ≠ other) :
    (entries.remove other).get? name = entries.get? name := by
  rw [get?, remove, lookup_filter_ne, if_neg h, get?]

theorem get?_put_of_ne (h : name ≠ other) (value : Bytes) :
    (entries.put other value).get? name = entries.get? name := by
  have hne : (name == other) = false := beq_eq_false_iff_ne.2 h
  rw [put, get?, List.lookup_cons, hne]
  exact get?_remove_of_ne h

end Entries

/-- A name that is safe for a folder. -/
structure WalletId where
  text : String
  ne_empty : text.toList ≠ []
  alphanumeric : text.toList.all Char.isAlphanum = true
  deriving DecidableEq, Repr

namespace WalletId

def ofString (text : String) : Except LedgerError WalletId :=
  if h : text.toList ≠ [] ∧ text.toList.all Char.isAlphanum = true then .ok ⟨text, h.1, h.2⟩
  else .error (.walletId text)

/-- The path of the file that keeps the entry under a key. -/
def path (id : WalletId) (key : String) : String :=
  id.text ++ "/" ++ key ++ ".json"

theorem path_inj (id : WalletId) {name other : String} :
    id.path name = id.path other ↔ name = other := by
  simp [path, String.append_left_inj, String.append_right_inj]

end WalletId

inductive CacheStore where
  | memory (entries : Entries)
  /-- The folder of one wallet, among the files of all. -/
  | folder (id : WalletId) (files : Entries)
  /-- A store on which every operation fails. -/
  | offline

namespace CacheStore

/-- A store in memory that is empty. -/
def empty : CacheStore := memory []

def get (s : CacheStore) (key : String) : Except LedgerError (Option Bytes) :=
  match s with
  | memory entries => .ok (entries.get? key)
  | folder id files => .ok (files.get? (id.path key))
  | offline => .error .storeOffline

def set (s : CacheStore) (key : String) (value : Bytes) : Except LedgerError CacheStore :=
  match s with
  | memory entries => .ok (memory (entries.put key value))
  | folder id files => .ok (folder id (files.put (id.path key) value))
  | offline => .error .storeOffline

def remove (s : CacheStore) (key : String) : Except LedgerError CacheStore :=
  match s with
  | memory entries => .ok (memory (entries.remove key))
  | folder id files => .ok (folder id (files.remove (id.path key)))
  | offline => .error .storeOffline

/-- The files that a store shares with the stores of other wallets. -/
def files : CacheStore → Entries
  | folder _ files => files
  | _ => []

end CacheStore

end CashWallet
