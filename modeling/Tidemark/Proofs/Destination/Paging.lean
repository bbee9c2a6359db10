import Mathlib.Algebra.Order.Floor.Div
import Tidemark.Proofs.Destination.Histories
import Tidemark.Proofs.Text.Numerals

/-!
# Pages of a listing

A token is the position that a page starts at, printed, and is read back as that position
(`position_toString`). On a sound stream without failures pending a page that starts inside the topology
holds the partitions up to its end, and gives a token unless it is the last one:

```
page start = partitions [start, start + pageSize)      next = start + pageSize   (list_inside, list_last)
```

The positions that a listing comes to are the multiples of the page size, so no end of a page overflows a word
(`add_pageSize_lt`), and none of the listings crashes.
-/

namespace Tidemark.InMemory

/-- The token of a position that a listing comes to. The first page is asked for without one. -/
def tokenAt (start : Nat) : Option String :=
  if start = 0 then none else some (toString start)

/-- The stream after so many more listings. -/
def afterListings (m : InMemory) (count : Nat) : InMemory :=
  { m with listCalls := m.listCalls + count }

theorem afterListings_succ (m : InMemory) (count : Nat) :
    (m.afterListings 1).afterListings count = m.afterListings (count + 1) := by
  simp only [afterListings, Nat.add_assoc, Nat.add_comm 1]

theorem position_toString {n : Nat} (hn : n < positionBound) :
    position (some (toString n)) = .ok n := by
  rw [position, Text.readNumeral_toString hn]

/-- The token of a position is read as that position. -/
theorem position_tokenAt {start : Nat} (hstart : start < positionBound) :
    position (tokenAt start) = .ok start := by
  rw [tokenAt]
  split
  · rw [‹start = 0›, position]
  · exact position_toString hstart

/-- When no listing is to fail, a token that writes no position down is refused. -/
theorem list_of_error {m : InMemory} (hthrottle : m.injections.throttleListings = 0)
    (hfail : m.injections.failListings = 0) {token : Option String} {fault : Fault}
    (htoken : position token = .error fault) : m.list token = (some (.error fault), m.afterListings 1) := by
  simp only [list, hthrottle, hfail, Nat.lt_irrefl, if_false, htoken]
  rfl

/-- Any other one gives the page that starts at its position, if the page does not crash. -/
theorem list_of_ok {m : InMemory} (hthrottle : m.injections.throttleListings = 0)
    (hfail : m.injections.failListings = 0) {token : Option String} {start : Nat}
    (htoken : position token = .ok start) : m.list token = ((m.page? start).map .ok, m.afterListings 1) := by
  simp only [list, hthrottle, hfail, Nat.lt_irrefl, if_false, htoken]
  rfl

/-- Without failures pending a listing gives the page that its token stands for. -/
theorem list_eq_page {m : InMemory} (hcalm : m.injections = {}) {token : Option String} {start : Nat}
    (htoken : position token = .ok start) : m.list token = ((m.page? start).map .ok, m.afterListings 1) := by
  have hthrottle : m.injections.throttleListings = 0 := by rw [hcalm]
  have hfail : m.injections.failListings = 0 := by rw [hcalm]
  exact list_of_ok hthrottle hfail htoken

theorem sound_afterListings {m : InMemory} (hm : m.Sound) (count : Nat) : (m.afterListings count).Sound :=
  ⟨hm.laidOut, hm.pageSize_pos, hm.pageSize_lt, hm.numbered⟩

namespace Sound

variable {m : InMemory} (hm : m.Sound) {start : Nat}
include hm

/-- A listing does not come to a position that overflows a word. -/
theorem add_pageSize_lt (hdvd : m.pageSize ∣ start) (hstart : start < m.partitions.length) :
    start + m.pageSize < positionBound := by
  have hsize := hm.pageSize_lt
  have hlength := hm.length_le
  rcases Nat.eq_zero_or_pos start with rfl | hpos
  · omega
  · have hle : m.pageSize ≤ start := Nat.le_of_dvd hpos hdvd
    unfold listBound positionBound at *
    omega

/-- The token of a position inside the stream is read. -/
theorem position_of_lt (hstart : start < m.partitions.length) :
    position (tokenAt start) = .ok start := by
  have hlength := hm.length_le
  apply position_tokenAt
  unfold listBound positionBound at *
  omega

variable (hcalm : m.injections = {})
include hcalm

/-- A listing only counts itself. -/
theorem list_snd (hstart : start < m.partitions.length) :
    (m.list (tokenAt start)).2 = m.afterListings 1 := by
  rw [list_eq_page hcalm (hm.position_of_lt hstart)]

variable (hdvd : m.pageSize ∣ start)
include hdvd

/-- A page that partitions are left after gives a token for them. -/
theorem list_inside (hnext : start + m.pageSize < m.partitions.length) :
    m.list (tokenAt start) =
      (some (.ok ⟨((m.partitions.take (start + m.pageSize)).drop start).map Partition.descriptor,
          tokenAt (start + m.pageSize)⟩),
        m.afterListings 1) := by
  have hstart : start < m.partitions.length := by omega
  have hstop : min (start + m.pageSize) m.partitions.length = start + m.pageSize :=
    Nat.min_eq_left (Nat.le_of_lt hnext)
  have hne : start + m.pageSize ≠ 0 := by
    have hpos := hm.pageSize_pos
    omega
  rw [list_eq_page hcalm (hm.position_of_lt hstart)]
  simp only [page?, tokenAt, if_pos (hm.add_pageSize_lt hdvd hstart), hstop, if_pos hnext, if_neg hne, Option.map_some]

/-- The last page holds the partitions that are left. -/
theorem list_last (hstart : start < m.partitions.length)
    (hlast : m.partitions.length ≤ start + m.pageSize) :
    m.list (tokenAt start) =
      (some (.ok ⟨(m.partitions.drop start).map Partition.descriptor, none⟩), m.afterListings 1) := by
  have hstop : min (start + m.pageSize) m.partitions.length = m.partitions.length :=
    Nat.min_eq_right hlast
  rw [list_eq_page hcalm (hm.position_of_lt hstart)]
  simp only [page?, if_pos (hm.add_pageSize_lt hdvd hstart), hstop, List.take_length, Nat.lt_irrefl, if_false,
    Option.map_some]

end Sound

/-! ### How many pages there are -/

/-- How many pages are listed from a position on. -/
def pagesFrom (m : InMemory) (start : Nat) : Nat :=
  (m.partitions.length - start) ⌈/⌉ m.pageSize

/-- One page, and those after it. -/
theorem Sound.pagesFrom_eq_succ {m : InMemory} (hm : m.Sound) {start : Nat}
    (hstart : start < m.partitions.length) :
    m.pagesFrom start = m.pagesFrom (start + m.pageSize) + 1 := by
  have hpos := hm.pageSize_pos
  rw [pagesFrom, pagesFrom, Nat.ceilDiv_eq_add_pred_div, Nat.ceilDiv_eq_add_pred_div]
  rcases Nat.lt_or_ge (start + m.pageSize) m.partitions.length with hnext | hlast
  · rw [← Nat.add_div_right _ hpos]
    congr 1
    omega
  · have hone : (m.partitions.length - start + m.pageSize - 1) / m.pageSize = 1 :=
      Nat.div_eq_of_lt_le (by omega) (by omega)
    have hnone : (m.partitions.length - (start + m.pageSize) + m.pageSize - 1) / m.pageSize = 0 :=
      Nat.div_eq_of_lt (by omega)
    rw [hone, hnone]

/-- Nothing is listed beyond the partitions. -/
theorem Sound.pagesFrom_eq_zero {m : InMemory} (hm : m.Sound) {start : Nat}
    (hstart : m.partitions.length ≤ start) : m.pagesFrom start = 0 := by
  have hpos := hm.pageSize_pos
  rw [pagesFrom, Nat.sub_eq_zero_of_le hstart, Nat.ceilDiv_eq_add_pred_div]
  exact Nat.div_eq_of_lt (by omega)

/-- There are no more pages than partitions. -/
theorem Sound.pagesFrom_le {m : InMemory} (hm : m.Sound) (start : Nat) :
    m.pagesFrom start ≤ m.partitions.length := by
  have hpos := hm.pageSize_pos
  rw [pagesFrom, ceilDiv_le_iff_le_mul hpos]
  calc m.partitions.length - start ≤ m.partitions.length := Nat.sub_le _ _
    _ = 1 * m.partitions.length := (Nat.one_mul _).symm
    _ ≤ m.pageSize * m.partitions.length := Nat.mul_le_mul_right _ hpos

end Tidemark.InMemory
