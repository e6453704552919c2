import CryptoTrader.Spec.L3Policy
import Mathlib.Data.List.Lex
import Mathlib.Data.List.Sort

/-! Kraken's order-by-order book (`order_book/kraken_l3_policy.h`,
`order_book/kraken_checksum.cpp`): the checksum of the ten best levels and the
reordering of one message's adds by their timestamps. -/

namespace CryptoTrader

def crcBit (crc : BitVec 32) : BitVec 32 :=
  if crc &&& 1#32 ≠ 0#32 then (crc >>> 1) ^^^ 0xEDB88320#32 else crc >>> 1

def crcByte (crc : BitVec 32) (byte : UInt8) : BitVec 32 := crcBit^[8] (crc ^^^ byte.toBitVec.setWidth 32)

/-- Reflected CRC-32, bit by bit. -/
def crc32 (data : Bytes) : BitVec 32 := ~~~ data.foldl crcByte 0xFFFFFFFF#32

def kKrakenChecksumLevels : ℕ := 10

def entryText (entry : BookEntry) : Bytes := intText entry.price ++ intText entry.quantity

/-- The text of the ten best levels. A level is a run of entries at one price, so a
new level starts where the price changes. -/
def appendTopLevels (levelsSeen : ℕ) (currentPrice : Option Price) : List BookEntry → Bytes
  | [] => []
  | entry :: entries =>
    if currentPrice ≠ some entry.price then
      if levelsSeen + 1 > kKrakenChecksumLevels then []
      else entryText entry ++ appendTopLevels (levelsSeen + 1) (some entry.price) entries
    else entryText entry ++ appendTopLevels levelsSeen currentPrice entries

def checksumText (view : BookView) : Bytes := appendTopLevels 0 none view.asks ++ appendTopLevels 0 none view.bids

def krakenL3Checksum (view : BookView) : BitVec 32 := crc32 (checksumText view)

structure ChecksumMeta where
  checksum : BitVec 32
  deriving DecidableEq, Repr

structure KrakenL3Update where
  update : L3Update
  timestamp : Bytes
  deriving DecidableEq, Repr

/-- Timestamps compare as `std::string`s do: byte by byte. -/
def timestampKey (entry : KrakenL3Update) : List ℕ := entry.timestamp.map UInt8.toNat

/-- The sort order of the adds of one message. -/
def arrivesBefore (a b : KrakenL3Update) : Prop := timestampKey a ≤ timestampKey b

instance : DecidableRel arrivesBefore := fun a b => inferInstanceAs (Decidable (timestampKey a ≤ timestampKey b))

instance : Std.Total arrivesBefore := ⟨fun a b => le_total (timestampKey a) (timestampKey b)⟩

instance : IsTrans KrakenL3Update arrivesBefore := ⟨fun _ _ _ hab hbc => le_trans (α := List ℕ) hab hbc⟩

/-- Every add takes the next of `adds`; the other events keep their place. There are
as many adds in `updates` as in `adds`, so `adds` never runs out. -/
def placeAdds : List KrakenL3Update → List KrakenL3Update → List L3Update
  | _, [] => []
  | adds, entry :: rest =>
    if entry.update.event = .added then (adds.take 1).map (·.update) ++ placeAdds (adds.drop 1) rest
    else entry.update :: placeAdds adds rest

/-- `std::stable_sort` of the adds; insertion sort is stable. -/
def addsInArrivalOrder (updates : List KrakenL3Update) : List L3Update :=
  placeAdds ((updates.filter fun entry => entry.update.event = .added).insertionSort arrivesBefore) updates

/-- A snapshot with its checksum. -/
structure KrakenSnapshot where
  snapshot : L3Snapshot
  msgMeta : ChecksumMeta
  deriving DecidableEq, Repr

/-- A batch with its checksum. -/
structure KrakenBatch where
  updates : List KrakenL3Update
  msgMeta : ChecksumMeta
  deriving DecidableEq, Repr

structure KrakenL3Policy where
  book : L3Policy
  deriving DecidableEq

namespace KrakenL3Policy

def init (subscribedDepth : Option ℕ) : KrakenL3Policy := ⟨.init subscribedDepth⟩

def best (p : KrakenL3Policy) (s : Side) : Option BookEntry := p.book.best s

/-- Only the checksum's own window is copied out of the book. -/
def verifyChecksum (book : L3Policy) (cs : ChangeSet) (msgMeta : ChecksumMeta) : ChangeSet :=
  if krakenL3Checksum (book.getBookView (some kKrakenChecksumLevels)) ≠ msgMeta.checksum then
    cs.report .checksumMismatch
  else cs

def applySnapshot (p : KrakenL3Policy) (snap : KrakenSnapshot) : KrakenL3Policy × ChangeSet :=
  let (book, cs) := p.book.applySnapshot snap.snapshot
  (⟨book⟩, verifyChecksum book cs snap.msgMeta)

def applyBatch (p : KrakenL3Policy) (batch : KrakenBatch) : KrakenL3Policy × ChangeSet :=
  let (book, cs) := p.book.applyBatch (addsInArrivalOrder batch.updates)
  (⟨book⟩, verifyChecksum book cs batch.msgMeta)

instance : GranularityPolicy KrakenL3Policy KrakenSnapshot KrakenBatch where
  best := best
  applySnapshot := applySnapshot
  applyBatch := applyBatch

end KrakenL3Policy

end CryptoTrader
