import Tentacle.IntervalMerge
import Tentacle.ModbusBlockPlan

/-!
# How long the read requests get

A Modbus request reads at most 125 registers or 2000 bits. The blocks of the scanner have
no such limit: a block grows as long as the next tag is near enough, and its length is cut
to sixteen bits when the request is made. Which tags give blocks that are too long can be
told from their addresses.
-/

namespace ModbusRequestLimits

open GoValues BigEndian IntervalMerge ModbusBlockPlan ModbusCodec ModbusReadBlocks
open ModbusScanner (ModbusTagConfig fcNameToCode)

/-! ## The request of a block -/

def buildReadPDU (fc : UInt8) (startAddr quantity : UInt16) : Bytes :=
  fc :: (putUint 2 startAddr.toNat ++ putUint 2 quantity.toNat)

/-- The request that `readBlock` sends for a block. -/
def readRequest (block : ReadBlock) : Bytes :=
  buildReadPDU (UInt8.ofNat block.functionCode) (UInt16.ofNat (toUint 16 block.startAddr))
    (UInt16.ofNat (toUint 16 block.count))

def addressField (pdu : Bytes) : Nat := uint ((pdu.drop 1).take 2)

def quantityField (pdu : Bytes) : Nat := uint ((pdu.drop 3).take 2)

/-- What a request may ask for. -/
def maxCount (fc : Nat) : Int := if fcIsCoilOrDiscrete fc then 2000 else 125

/-- The block is within the limit, and its request asks for the block. -/
structure Legal (block : ReadBlock) : Prop where
  count : 1 ≤ block.count ∧ block.count ≤ maxCount block.functionCode
  address : (addressField (readRequest block) : Int) = block.startAddr
  quantity : (quantityField (readRequest block) : Int) = block.count
  last : block.startAddr + block.count ≤ 65536

theorem addressField_readRequest (block : ReadBlock) :
    addressField (readRequest block) = toUint 16 block.startAddr % 65536 := by
  rw [addressField, readRequest, buildReadPDU, List.drop_succ_cons, List.drop_zero,
    List.take_left' (length_putUint 2 _), uint_putUint, UInt16.toNat_ofNat']
  omega

theorem quantityField_readRequest (block : ReadBlock) :
    quantityField (readRequest block) = toUint 16 block.count % 65536 := by
  rw [quantityField, readRequest, buildReadPDU, List.drop_succ_cons,
    List.drop_left' (length_putUint 2 _), List.take_of_length_le (length_putUint 2 _).le,
    uint_putUint, UInt16.toNat_ofNat']
  omega

theorem toUint_eq {n : Int} (hlow : 0 ≤ n) (hhigh : n < 65536) : (toUint 16 n : Int) = n := by
  rw [toUint]
  omega

/-! ## Blocks as intervals -/

/-- The registers of a tag are addresses of the protocol. -/
def InRange (tag : ModbusTagConfig) : Prop :=
  0 ≤ tag.address ∧ tag.address + regSize tag ≤ 65536

def interval (tag : ModbusTagConfig) : Interval := ⟨tag.address, tag.address + regSize tag⟩

def span (block : ReadBlock) : Interval := ⟨block.startAddr, block.startAddr + block.count⟩

/-- The block is not empty and lies within the addresses of the protocol. -/
def Bounded (block : ReadBlock) : Prop :=
  0 ≤ block.startAddr ∧ 1 ≤ block.count ∧ block.startAddr + block.count ≤ 65536

theorem regSize_pos (tag : ModbusTagConfig) : 1 ≤ regSize tag := by
  rw [regSize]
  split
  · exact le_rfl
  · cases Datatype.ofString tag.datatype <;> simp [registerCount]

theorem int64_of_bounded {n : Int} (hlow : -131072 ≤ n) (hhigh : n ≤ 131072) : int64 n = n :=
  int64_of_small (by omega) (by omega)

theorem bounded_newBlock (fc : Nat) {tag : ModbusTagConfig} (h : InRange tag) :
    Bounded (newBlock fc tag) := by
  have hpos := regSize_pos tag
  exact ⟨h.1, by simp only [newBlock]; omega, h.2⟩

theorem extendBlock_startAddr (block : ReadBlock) (tag : ModbusTagConfig) :
    (extendBlock block tag).startAddr = block.startAddr := by rw [extendBlock]

section Extend

variable {block : ReadBlock} {tag : ModbusTagConfig} (hblock : Bounded block) (htag : InRange tag)
include hblock htag

/-- A block grows up to the end of its last tag. -/
theorem extendBlock_count :
    (extendBlock block tag).count =
      max block.count (tag.address + regSize tag - block.startAddr) := by
  obtain ⟨hlow, hcount, hend⟩ := hblock
  obtain ⟨haddress, hlast⟩ := htag
  have hsize := regSize_pos tag
  rw [extendBlock]
  dsimp only
  rw [int64_of_bounded (n := tag.address + regSize tag) (by omega) (by omega),
    int64_of_bounded (by omega) (by omega)]
  split <;> omega

theorem bounded_extendBlock : Bounded (extendBlock block tag) := by
  rw [Bounded, extendBlock_count hblock htag, extendBlock_startAddr]
  obtain ⟨hlow, hcount, hend⟩ := hblock
  obtain ⟨haddress, hlast⟩ := htag
  omega

theorem span_extendBlock : span (extendBlock block tag) = (span block).extend (interval tag) := by
  rw [span, extendBlock_count hblock htag, extendBlock_startAddr, span,
    IntervalMerge.Interval.extend, interval]
  congr 1
  dsimp only
  omega

/-- The gap that the merge measures is the distance of the intervals. -/
theorem gap_block :
    int64 (tag.address - int64 (block.startAddr + block.count)) =
      (interval tag).start - (span block).stop := by
  obtain ⟨hlow, hcount, hend⟩ := hblock
  obtain ⟨haddress, hlast⟩ := htag
  have hsize := regSize_pos tag
  rw [int64_of_bounded (n := block.startAddr + block.count) (by omega) (by omega),
    int64_of_bounded (by omega) (by omega)]
  rfl

end Extend

/-- The merge of the blocks is the merge of their intervals. -/
theorem spans_mergeBlocks (fc : Nat) {block : ReadBlock} (hblock : Bounded block)
    {tags : List ModbusTagConfig} (htags : ∀ tag ∈ tags, InRange tag) :
    (mergeBlocks fc (some block) tags).map span =
      merge maxGap (span block) (tags.map interval) := by
  induction tags generalizing block with
  | nil => rfl
  | cons tag tags ih =>
    obtain ⟨htag, htags⟩ := List.forall_mem_cons.mp htags
    rw [mergeBlocks, List.map_cons, merge, gap_block hblock htag]
    split
    · rw [ih (bounded_extendBlock hblock htag) htags, span_extendBlock hblock htag]
    · rw [List.map_cons, ih (bounded_newBlock fc htag) htags]
      rfl

/-- Every block of the merge is in bounds and keeps its function code. -/
theorem bounded_mergeBlocks (fc : Nat) {tags : List ModbusTagConfig}
    (htags : ∀ tag ∈ tags, InRange tag) :
    ∀ block ∈ mergeBlocks fc none tags, Bounded block ∧ block.functionCode = fc := by
  apply mergeBlocks_induct (P := fun block => Bounded block ∧ block.functionCode = fc)
    (L := fun tags => ∀ tag ∈ tags, InRange tag)
    (I := fun _ block => Bounded block ∧ block.functionCode = fc)
  · exact fun tag tags htags => (List.forall_mem_cons.mp htags).2
  · exact fun tag tags htags => ⟨bounded_newBlock fc (htags tag List.mem_cons_self), rfl⟩
  · rintro block tag tags htags ⟨hblock, hfc⟩ -
    exact ⟨bounded_extendBlock hblock (htags tag List.mem_cons_self), hfc⟩
  · exact fun _ _ h => h
  · exact htags
  · simp

/-! ## The limit -/

/-- A block of the protocol's addresses is legal exactly when it is short enough. -/
theorem legal_iff {block : ReadBlock} (h : Bounded block) :
    Legal block ↔ block.count ≤ maxCount block.functionCode := by
  obtain ⟨hlow, hcount, hend⟩ := h
  constructor
  · intro hlegal
    exact hlegal.count.2
  · intro hle
    have hmax : maxCount block.functionCode ≤ 2000 := by
      rw [maxCount]
      split <;> omega
    refine ⟨⟨hcount, hle⟩, ?_, ?_, hend⟩
    · have hfield := toUint_eq hlow (by omega)
      rw [addressField_readRequest]
      omega
    · have hfield := toUint_eq (n := block.count) (by omega) (by omega)
      rw [quantityField_readRequest]
      omega

/-- The blocks of one function code are short enough exactly when its tags are spread. -/
theorem mergeBlocks_le_iff (fc : Nat) {tags : List ModbusTagConfig}
    (htags : ∀ tag ∈ tags, InRange tag)
    (hsorted : tags.Pairwise fun t u => t.address ≤ u.address) :
    (∀ block ∈ mergeBlocks fc none tags, block.count ≤ maxCount fc) ↔
      Spread maxGap (maxCount fc) (tags.map interval) := by
  cases tags with
  | nil => simp [mergeBlocks, Spread]
  | cons tag tags =>
    obtain ⟨htag, hrest⟩ := List.forall_mem_cons.mp htags
    have hspans := spans_mergeBlocks fc (bounded_newBlock fc htag) hrest
    have hlimit : 0 ≤ maxCount fc := by
      rw [maxCount]
      split <;> omega
    have hlength : ∀ u ∈ (tag :: tags).map interval, 0 ≤ u.length := by
      intro u hu
      obtain ⟨t, -, rfl⟩ := List.mem_map.mp hu
      simp only [IntervalMerge.Interval.length, interval]
      omega
    have hcounts : ∀ block : ReadBlock, block.count = (span block).length := by
      intro block
      simp only [IntervalMerge.Interval.length, span]
      omega
    have hstarts : ((tag :: tags).map interval).Pairwise fun t u => t.start ≤ u.start :=
      List.pairwise_map.mpr hsorted
    have hgap : 0 ≤ maxGap := by decide
    rw [List.map_cons] at hlength hstarts
    rw [mergeBlocks, List.map_cons, ← merge_length_le_iff hgap hlimit hlength hstarts]
    change _ ↔ ∀ b ∈ merge maxGap (span (newBlock fc tag)) _, _
    rw [← hspans, List.forall_mem_map]
    simp only [hcounts]

variable {tags : GoMap String ModbusTagConfig} {groups : List (Nat × List ModbusTagConfig)}

/-- The tags of a function code. -/
def tagsOf (tags : GoMap String ModbusTagConfig) (fc : Nat) : List ModbusTagConfig :=
  (tags.entries.map (·.2)).filter fun tag => fcNameToCode tag.functionCode = fc

/-- Where a tag starts further before the end of another tag of its function code than a
request can read, some tag of that code between them starts more than the gap behind all
the tags of the code that start before it. -/
def WellSpread (tags : GoMap String ModbusTagConfig) : Prop :=
  ∀ fc, Spread maxGap (maxCount fc) ((tagsOf tags fc).map interval)

/-- The requests for all tags are legal exactly when the tags are well spread. -/
theorem requests_legal_iff (h : Groups tags groups)
    (hrange : ∀ e ∈ tags.entries, InRange e.2) :
    (∀ block ∈ buildReadBlocks groups, Legal block) ↔ WellSpread tags := by
  have htags : ∀ g ∈ groups, ∀ tag ∈ g.2, InRange tag := by
    intro g hg tag htag
    obtain ⟨e, he, rfl⟩ := List.mem_map.mp ((mem_group_iff h.toGrouping hg).mp htag).1
    exact hrange e he
  have hgroup : ∀ g ∈ groups, ((∀ block ∈ mergeBlocks g.1 none g.2, Legal block) ↔
      Spread maxGap (maxCount g.1) ((tagsOf tags g.1).map interval)) := by
    intro g hg
    have hbounded := bounded_mergeBlocks g.1 (htags g hg)
    have hmem : ∀ i, i ∈ (tagsOf tags g.1).map interval ↔ i ∈ g.2.map interval := fun i =>
      ((h.perm g hg).map interval).symm.mem_iff
    rw [spread_congr hmem, ← mergeBlocks_le_iff g.1 (htags g hg) (h.sorted g hg)]
    refine forall₂_congr fun block hblock => ?_
    obtain ⟨hblock, hfc⟩ := hbounded block hblock
    rw [legal_iff hblock, hfc]
  rw [buildReadBlocks]
  constructor
  · intro hlegal fc
    by_cases hfc : ∃ g ∈ groups, g.1 = fc
    · obtain ⟨g, hg, rfl⟩ := hfc
      exact (hgroup g hg).mp fun block hblock => hlegal block (List.mem_flatMap.mpr ⟨g, hg, hblock⟩)
    · -- A code without a group has no tags.
      intro t ht
      obtain ⟨tag, htag, -⟩ := List.mem_map.mp ht
      obtain ⟨hmem, hcode⟩ := List.mem_filter.mp htag
      obtain ⟨e, he, rfl⟩ := List.mem_map.mp hmem
      obtain ⟨g, hg, hg'⟩ := h.covers e he
      exact absurd ⟨g, hg, hg'.trans (of_decide_eq_true hcode)⟩ hfc
  · intro hspread block hblock
    obtain ⟨g, hg, hblock⟩ := List.mem_flatMap.mp hblock
    exact (hgroup g hg).mpr (hspread g.1) block hblock

theorem requests_legal_iff_holding :
    (∀ block ∈ buildReadBlocks holdingGroup, Legal block) ↔ WellSpread twoHoldingTags :=
  requests_legal_iff groups_holdingGroup (by simp only [InRange]; decide)

/-- Ten values of four registers with a gap of ten registers between them. -/
def wideTags : List ModbusTagConfig :=
  (List.range 10).map fun i =>
    { id := String.singleton (Char.ofNat (97 + i))
      address := 14 * i
      functionCode := "holding"
      datatype := "float64" }

/-- They are read as one block of 130 registers. -/
theorem wideTags_illegal :
    ¬∀ (tags : GoMap String ModbusTagConfig) (groups : List (Nat × List ModbusTagConfig)),
      Groups tags groups → (∀ e ∈ tags.entries, InRange e.2) →
        ∀ block ∈ buildReadBlocks groups, Legal block := by
  intro h
  let tags : GoMap String ModbusTagConfig := ⟨wideTags.map fun tag => ⟨tag.id, tag⟩, by
    rw [List.NodupKeys]
    decide +kernel⟩
  have hgroups : Groups tags [(3, wideTags)] := by
    refine ⟨⟨by decide, ?_, ?_⟩, ?_⟩
    · intro g hg
      obtain rfl := List.mem_singleton.mp hg
      exact List.Perm.of_eq (by decide +kernel)
    · intro g hg
      obtain rfl := List.mem_singleton.mp hg
      decide +kernel
    · intro e he
      exact ⟨_, List.mem_singleton_self _, by revert e; decide +kernel⟩
  have hrange : ∀ e ∈ tags.entries, InRange e.2 := by
    simp only [InRange]
    decide +kernel
  have hlong : ∃ block ∈ buildReadBlocks [(3, wideTags)],
      ¬block.count ≤ maxCount block.functionCode := by
    decide +kernel
  obtain ⟨block, hblock, hcount⟩ := hlong
  exact hcount (h tags _ hgroups hrange block hblock).count.2

end ModbusRequestLimits
