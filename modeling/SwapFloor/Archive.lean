import SwapFloor.Room.Basic
import SwapFloor.Share
import SwapFloor.Table
import SwapFloor.Token

/-!
# The archive

What outlives an operation: rooms and members as they were last saved, everything that was
shared, room by room in its order, and tokens by mint.
-/

namespace SwapFloor

/-- Saved rooms, members, shares and tokens. -/
structure Archive where
  rooms : Table String Room
  /-- Members by room and wallet. -/
  members : Table (String × String) Member
  /-- What was shared in each room, oldest first. -/
  shares : Table String (List Share)
  tokens : Table String Token

namespace Archive

/-- Nothing saved. -/
def empty : Archive := ⟨.empty, .empty, .empty, .empty⟩

/-- Saves a room in place of its last state. -/
def saveRoom (a : Archive) (r : Room) : Archive := { a with rooms := a.rooms.insert r.id r }

/-- A room as it was last saved. -/
def room? (a : Archive) (id : String) : Option Room := a.rooms.get? id

/-- Saves a member in place of its last state. -/
def saveMember (a : Archive) (m : Member) : Archive :=
  { a with members := a.members.insert (m.room, m.wallet) m }

/-- The active members of a room, first joined first. -/
def activeMembers (a : Archive) (room : String) : List Member :=
  ((a.members.entries.filter fun e => e.1.1 == room && e.2.active).map Prod.snd).mergeSort
    fun m n => n.joinTime.notBefore m.joinTime

/-- Everything that was shared in a room. -/
def sharesOf (a : Archive) (room : String) : List Share := (a.shares.get? room).getD []

def addShare (a : Archive) (s : Share) : Archive :=
  { a with shares := a.shares.insert s.room (a.sharesOf s.room ++ [s]) }

/-- The last `limit` things that were shared in a room. -/
def lastShares (a : Archive) (room : String) (limit : Nat) : List Share :=
  let all := a.sharesOf room
  all.drop (all.length - limit)

/-- Saves a token in place of its last state. -/
def saveToken (a : Archive) (t : Token) : Archive := { a with tokens := a.tokens.insert t.mint t }

def tokenOfMint? (a : Archive) (mint : String) : Option Token := a.tokens.get? mint

/-- The tokens of a symbol, whatever the case of its letters `a` to `z`. -/
def tokensOfSymbol (a : Archive) (symbol : String) : List Token :=
  a.tokens.values.filter fun t => Text.eqIgnoreAsciiCase t.symbol symbol

/-! ## Small lemmas -/

theorem room?_saveRoom (a : Archive) (r : Room) (id : String) :
    (a.saveRoom r).room? id = if id = r.id then some r else a.room? id :=
  Table.get?_insert ..

theorem mem_activeMembers {a : Archive} {room : String} {m : Member} :
    m ∈ a.activeMembers room ↔
      m.active = true ∧ ∃ w, a.members.get? (room, w) = some m := by
  unfold activeMembers
  simp only [List.mem_mergeSort, List.mem_map, List.mem_filter, Table.get?_eq_some_iff]
  constructor
  · rintro ⟨⟨⟨r, w⟩, m'⟩, ⟨hm, hp⟩, rfl⟩
    simp only [Bool.and_eq_true, beq_iff_eq] at hp
    exact ⟨hp.2, w, hp.1 ▸ hm⟩
  · rintro ⟨ha, w, hm⟩
    exact ⟨((room, w), m), ⟨hm, by simp [ha]⟩, rfl⟩

theorem sharesOf_addShare (a : Archive) (s : Share) (room : String) :
    (a.addShare s).sharesOf room
      = if room = s.room then a.sharesOf room ++ [s] else a.sharesOf room := by
  unfold addShare sharesOf
  simp only [Table.get?_insert]
  split
  · rename_i h
    subst h
    rfl
  · rfl

end Archive

end SwapFloor
