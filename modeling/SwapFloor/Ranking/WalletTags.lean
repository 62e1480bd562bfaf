import SwapFloor.Settings.Basic
import SwapFloor.Table

/-!
# Tags of wallets

Wallets that are worth watching carry a tag, at most one each.
-/

namespace SwapFloor

structure WalletTags where
  tags : Table String String

namespace WalletTags

def empty : WalletTags := ⟨.empty⟩

def get? (t : WalletTags) (wallet : String) : Option String := t.tags.get? wallet

/-- Gives a wallet a tag. -/
def insert (t : WalletTags) (wallet tag : String) : WalletTags := ⟨t.tags.insert wallet tag⟩

/-- Takes the tag of a wallet away. -/
def erase (t : WalletTags) (wallet : String) : WalletTags := ⟨t.tags.erase wallet⟩

/-- The tags of the settings; of two for one wallet the later counts. -/
def ofSettings (wallets : List Settings.TaggedWallet) : WalletTags :=
  wallets.foldl (fun t w => t.insert w.address w.tag) empty

/-- All tagged wallets by address. -/
def toList (t : WalletTags) : List (String × String) :=
  t.tags.entries.mergeSort fun a b => a.1 ≤ b.1

/-- The number of tagged wallets. -/
def size (t : WalletTags) : Nat := t.tags.size

theorem get?_insert (t : WalletTags) (w w' tag : String) :
    (t.insert w tag).get? w' = if w' = w then some tag else t.get? w' :=
  Table.get?_insert ..

theorem get?_erase (t : WalletTags) (w w' : String) :
    (t.erase w).get? w' = if w' = w then none else t.get? w' :=
  Table.get?_erase ..

theorem mem_toList {t : WalletTags} {w tag : String} :
    (w, tag) ∈ t.toList ↔ t.get? w = some tag := by
  unfold toList get?
  rw [List.mem_mergeSort, Table.get?_eq_some_iff]

end WalletTags

end SwapFloor
