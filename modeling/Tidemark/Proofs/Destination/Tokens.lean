import Mathlib.Logic.Relation
import Tidemark.Proofs.Destination.Paging

/-!
# Free tokens

A token is free text. It is read if it writes down a position (`position_eq_ok_iff`), and refused if it does not
(`position_eq_error_iff`). A page is exact if it has the partitions from its position on, up to the page size, and
the token of the position after them if and only if there are more (`Exact`). Where a page ends is added up in
words, though, so everything depends on where it would end:

```
start + size      0 ........ count ........ 2 ^ 64 ........
page                exact           exact           a crash
next                later           none
```

So a page is exact unless its end is no word any more (`exact_page?`), and then there is none at all
(`page?_eq_none_iff`). No token of a page leads there: who turns the pages only comes to later partitions, one page
size on with each page, and to an exact page each time (`turnsPages`). But a token from there can be written down,
however few partitions there are (`greatest_token_crashes`).
-/

namespace Tidemark.InMemory

/-! ### What a token stands for -/

/-- The token writes down the position, which is a word. Without a token it is the first one. -/
def StandsFor (token : Option String) (start : Nat) : Prop :=
  match token with
  | none => start = 0
  | some text => Text.IsNumeral text start ∧ start < positionBound

/-- A position is read off a token exactly if the token writes it down. -/
theorem position_eq_ok_iff {token : Option String} {start : Nat} :
    position token = .ok start ↔ StandsFor token start := by
  cases token with
  | none => exact ⟨fun h ↦ (Except.ok.inj h).symm, fun h ↦ congrArg Except.ok (Eq.symm h)⟩
  | some text =>
    have hread : Text.readNumeral positionBound text = .ok start ↔ StandsFor (some text) start :=
      Text.readNumeral_eq_ok_iff (by decide)
    rw [← hread, position]
    cases Text.readNumeral positionBound text <;> simp

/-- A text is read as a position, or it is an invalid token. -/
theorem position_cases (text : String) :
    (∃ n, position (some text) = .ok n) ∨
      position (some text) = .error (.destination (.invalidToken text)) := by
  rw [position]
  cases Text.readNumeral positionBound text with
  | ok n => exact Or.inl ⟨n, rfl⟩
  | error _ => exact Or.inr rfl

/-- A token is refused if and only if it writes no position down. -/
theorem position_eq_error_iff {token : Option String} {fault : Fault} :
    position token = .error fault ↔ ∃ text, token = some text ∧
      fault = .destination (.invalidToken text) ∧ ∀ n < positionBound, ¬ Text.IsNumeral text n := by
  constructor
  · intro h
    cases token with
    | none => exact nomatch h
    | some text =>
      have hread (n : Nat) : position (some text) ≠ .ok n := by simp [h]
      rcases position_cases text with ⟨n, hn⟩ | hinvalid
      · exact absurd hn (hread n)
      · rw [h, Except.error.injEq] at hinvalid
        exact ⟨text, rfl, hinvalid, fun n hn hnumeral ↦ hread n (position_eq_ok_iff.2 ⟨hnumeral, hn⟩)⟩
  · rintro ⟨text, rfl, rfl, hnone⟩
    rcases position_cases text with ⟨n, hn⟩ | hinvalid
    · obtain ⟨hnumeral, hlt⟩ := position_eq_ok_iff.1 hn
      exact absurd hnumeral (hnone n hlt)
    · exact hinvalid

/-! ### What a page holds -/

/-- The partitions at the positions from one on, up to another that is not among them. -/
def between (m : InMemory) (start stop : Nat) : List Partition :=
  (m.partitions.zipIdx.filter fun x ↦ start ≤ x.2 && x.2 < stop).map Prod.fst

/-- The positions from one up to another are those that are left when the first ones are dropped. -/
theorem filter_zipIdx_eq {α : Type} (xs : List α) (first start stop : Nat) :
    ((xs.zipIdx first).filter fun x ↦ start ≤ x.2 && x.2 < stop).map Prod.fst =
      (xs.take (stop - first)).drop (start - first) := by
  induction xs generalizing first with
  | nil => simp
  | cons x rest ih =>
    rw [List.zipIdx_cons]
    rcases Nat.lt_or_ge first stop with hin | hbehind
    · have hstop : stop - first = stop - (first + 1) + 1 := by omega
      rcases Nat.lt_or_ge first start with hbefore | hfrom
      · have hstart : start - first = start - (first + 1) + 1 := by omega
        rw [List.filter_cons_of_neg (by simp; omega), ih, hstop, hstart, List.take_succ_cons,
          List.drop_succ_cons]
      · have hstart : start - first = 0 := Nat.sub_eq_zero_of_le hfrom
        have hrest : start - (first + 1) = 0 := Nat.sub_eq_zero_of_le (Nat.le_succ_of_le hfrom)
        rw [List.filter_cons_of_pos (by simp; omega), List.map_cons, ih, hstop, hstart, hrest,
          List.take_succ_cons, List.drop_zero, List.drop_zero]
    · have hstop : stop - first = 0 := Nat.sub_eq_zero_of_le hbehind
      have hrest : stop - (first + 1) = 0 := Nat.sub_eq_zero_of_le (Nat.le_succ_of_le hbehind)
      rw [List.filter_cons_of_neg (by simp; omega), ih, hstop, hrest, List.take_zero, List.take_zero,
        List.drop_nil, List.drop_nil]

/-- What lies between two positions is cut out of the partitions. -/
theorem between_eq (m : InMemory) (start stop : Nat) :
    m.between start stop = (m.partitions.take stop).drop start :=
  filter_zipIdx_eq m.partitions 0 start stop

/-- Nothing lies between a position and an earlier one. -/
theorem between_eq_nil {m : InMemory} {start stop : Nat} (h : stop ≤ start) : m.between start stop = [] := by
  rw [between_eq]
  exact List.drop_eq_nil_of_le (Nat.le_trans (List.length_take_le ..) h)

/-- The page has the partitions from a position on, up to the page size, and a token if and only if there are more
of them. The token is read back as the position that they start at. -/
structure Exact (m : InMemory) (start : Nat) (page : Page) : Prop where
  partitions : page.partitions =
    (m.between start (min (start + m.pageSize) m.partitions.length)).map Partition.descriptor
  next : page.next =
    if start + m.pageSize < m.partitions.length then some (toString (start + m.pageSize)) else none
  readBack : ∀ text, page.next = some text → position (some text) = .ok (start + m.pageSize)

section Page

variable {m : InMemory} {start : Nat}

/-- Nothing is left behind the last partition. -/
theorem Exact.eq_last {page : Page} (h : m.Exact start page) (hbehind : m.partitions.length ≤ start) :
    page = ⟨[], none⟩ := by
  have hpartitions := h.partitions
  have hnext := h.next
  rw [between_eq_nil (Nat.le_trans (Nat.min_le_right ..) hbehind), List.map_nil] at hpartitions
  rw [if_neg (by omega)] at hnext
  cases page
  exact congrArg₂ Page.mk hpartitions hnext

/-- There is no page, but a crash, if and only if its end is no word. -/
theorem page?_eq_none_iff : m.page? start = none ↔ positionBound ≤ start + m.pageSize := by
  rw [page?]
  split
  · rename_i hend
    exact ⟨fun h ↦ absurd h (Option.some_ne_none _), fun h ↦ absurd hend (Nat.not_lt.2 h)⟩
  · rename_i hend
    exact ⟨fun _ ↦ Nat.not_lt.1 hend, fun _ ↦ rfl⟩

/-- A page is exact as long as its end is a word. -/
theorem exact_page? (hend : start + m.pageSize < positionBound) :
    ∃ page, m.page? start = some page ∧ m.Exact start page := by
  refine ⟨_, by rw [page?, if_pos hend], ?_, ?_, fun text htext ↦ ?_⟩
  · rw [between_eq]
  · dsimp only
    rcases Nat.lt_or_ge (start + m.pageSize) m.partitions.length with hinside | hbehind
    · rw [Nat.min_eq_left (Nat.le_of_lt hinside)]
    · rw [Nat.min_eq_right hbehind, if_neg (Nat.lt_irrefl _), if_neg (Nat.not_lt.2 hbehind)]
  · dsimp only at htext
    split at htext
    · rename_i hinside
      have hmin : min (start + m.pageSize) m.partitions.length = start + m.pageSize := by omega
      rw [← Option.some.inj htext, hmin]
      exact position_toString hend
    · exact absurd htext.symm (Option.some_ne_none text)

/-- No list is so long that the page after another one ends beyond the words. -/
theorem end_lt_of_inside (hlength : m.partitions.length ≤ listBound) (hle : m.pageSize ≤ start)
    (hinside : start < m.partitions.length) : start + m.pageSize < positionBound := by
  unfold listBound at hlength
  unfold positionBound
  omega

end Page

/-! ### From page to page -/

/-- A page is turned: the listing goes on with the token that the page gives. -/
inductive TurnsPage : InMemory × Option String → InMemory × Option String → Prop
  | turn {m : InMemory} {token : Option String} {page : Page} {text : String}
      (hlist : (m.list token).1 = some (.ok page)) (hnext : page.next = some text) :
      TurnsPage (m, token) ((m.list token).2, some text)

/-- The listing has come so many pages on from a position, to a later partition. From there it has an exact page. -/
structure ComesTo (m : InMemory) (start pages : Nat) (reached : InMemory × Option String) : Prop where
  stream : reached.1 = m.afterListings pages
  token : StandsFor reached.2 (start + pages * m.pageSize)
  later : start < start + pages * m.pageSize
  inside : start + pages * m.pageSize < m.partitions.length
  exact : ∃ page, (reached.1.list reached.2).1 = some (.ok page) ∧ m.Exact (start + pages * m.pageSize) page

section Turning

variable {m : InMemory} (hthrottle : m.injections.throttleListings = 0)
  (hfail : m.injections.failListings = 0)
include hthrottle hfail

/-- The page of a token starts at the position that the token stands for. -/
theorem list_of_standsFor {token : Option String} {start : Nat} (htoken : StandsFor token start) :
    m.list token = ((m.page? start).map .ok, m.afterListings 1) :=
  list_of_ok hthrottle hfail (position_eq_ok_iff.2 htoken)

/-- A listing crashes if and only if the end of its page is no word. -/
theorem list_crashes_iff {token : Option String} {start : Nat} (htoken : StandsFor token start) :
    (m.list token).1 = none ↔ positionBound ≤ start + m.pageSize := by
  rw [list_of_standsFor hthrottle hfail htoken, Option.map_eq_none_iff, page?_eq_none_iff]

/-- Otherwise it gives an exact page. -/
theorem exact_list {token : Option String} {start : Nat} (htoken : StandsFor token start)
    (hend : start + m.pageSize < positionBound) :
    ∃ page, (m.list token).1 = some (.ok page) ∧ m.Exact start page := by
  obtain ⟨page, hpage, hexact⟩ := exact_page? hend
  refine ⟨page, ?_, hexact⟩
  rw [list_of_standsFor hthrottle hfail htoken, hpage, Option.map_some]

/-- A page is turned to the one that starts where it ends. -/
theorem turnsPage {token : Option String} {start : Nat} (htoken : StandsFor token start)
    (hend : start + m.pageSize < positionBound) {reached : InMemory × Option String}
    (h : TurnsPage (m, token) reached) :
    reached.1 = m.afterListings 1 ∧ StandsFor reached.2 (start + m.pageSize) ∧
      start + m.pageSize < m.partitions.length := by
  obtain ⟨page, hlist, hexact⟩ := exact_list hthrottle hfail htoken hend
  cases h with
  | turn hturned hnext =>
    obtain rfl := Except.ok.inj (Option.some.inj (hlist.symm.trans hturned))
    have hread := hexact.readBack _ hnext
    rw [hexact.next] at hnext
    split at hnext
    · exact ⟨by rw [list_of_standsFor hthrottle hfail htoken], position_eq_ok_iff.1 hread, ‹_›⟩
    · exact nomatch hnext

variable (hpos : 0 < m.pageSize) (hlength : m.partitions.length ≤ listBound) {start : Nat}
include hpos hlength

/-- One more page is turned. -/
theorem comesTo_of_turnsPage {pages : Nat} {before reached : InMemory × Option String}
    (hstream : before.1 = m.afterListings pages) (htoken : StandsFor before.2 (start + pages * m.pageSize))
    (hend : start + pages * m.pageSize + m.pageSize < positionBound) (h : TurnsPage before reached) :
    m.ComesTo start (pages + 1) reached := by
  obtain ⟨stream, token⟩ := before
  obtain rfl : stream = m.afterListings pages := hstream
  obtain ⟨hnow, hnext, hinside⟩ := turnsPage (m := m.afterListings pages) hthrottle hfail htoken hend h
  have hsum : start + pages * m.pageSize + m.pageSize = start + (pages + 1) * m.pageSize := by
    rw [Nat.add_assoc, ← Nat.succ_mul]
  have hfits : start + pages * m.pageSize + m.pageSize + m.pageSize < positionBound :=
    end_lt_of_inside hlength (Nat.le_add_left _ _) hinside
  have hlater : start < start + pages * m.pageSize + m.pageSize := by omega
  obtain ⟨stream, token⟩ := reached
  obtain rfl : stream = m.afterListings (pages + 1) := hnow
  obtain ⟨page, hlist, hexact⟩ :=
    exact_list (m := m.afterListings (pages + 1)) hthrottle hfail (hsum ▸ hnext) (hsum ▸ hfits)
  exact ⟨rfl, hsum ▸ hnext, hsum ▸ hlater, hsum ▸ hinside, page, hlist,
    hexact.partitions, hexact.next, hexact.readBack⟩

/-- However many pages are turned, the listing only comes to later partitions. -/
theorem turnsPages {token : Option String} (htoken : StandsFor token start)
    (hend : start + m.pageSize < positionBound) {reached : InMemory × Option String}
    (h : Relation.TransGen TurnsPage (m, token) reached) : ∃ pages, m.ComesTo start pages reached := by
  induction h with
  | single h =>
    have hzero : start + 0 * m.pageSize = start := by rw [Nat.zero_mul, Nat.add_zero]
    exact ⟨1, comesTo_of_turnsPage hthrottle hfail hpos hlength rfl (hzero.symm ▸ htoken) (hzero.symm ▸ hend) h⟩
  | tail _ h ih =>
    obtain ⟨pages, hcomes⟩ := ih
    -- the page before was not the first one, so that it starts a page size on
    have hle : m.pageSize ≤ start + pages * m.pageSize := by
      rcases Nat.eq_zero_or_pos pages with rfl | hturned
      · have hlater := hcomes.later
        omega
      · exact Nat.le_trans (Nat.le_mul_of_pos_left _ hturned) (Nat.le_add_left _ _)
    exact ⟨pages + 1, comesTo_of_turnsPage hthrottle hfail hpos hlength hcomes.stream hcomes.token
      (end_lt_of_inside hlength hle hcomes.inside) h⟩

end Turning

/-- When no listing is to fail, a token is refused if and only if it writes no position down. Any other token gets
an exact page, from which the pages only lead on, unless the end of the page overflows. Then the listing crashes. -/
theorem pages_exact_unless_end_overflows {m : InMemory} (hthrottle : m.injections.throttleListings = 0)
    (hfail : m.injections.failListings = 0) (hpos : 0 < m.pageSize) (token : Option String) :
    (∀ fault, (m.list token).1 = some (.error fault) ↔ ∃ text, token = some text ∧
        fault = .destination (.invalidToken text) ∧ ∀ n < positionBound, ¬ Text.IsNumeral text n) ∧
      (m.list token).2 = m.afterListings 1 ∧
      ∀ start, StandsFor token start →
        ((m.list token).1 = none ↔ positionBound ≤ start + m.pageSize) ∧
        (start + m.pageSize < positionBound → ∃ page, (m.list token).1 = some (.ok page) ∧ m.Exact start page ∧
          (m.partitions.length ≤ start → page = ⟨[], none⟩) ∧
          (m.partitions.length ≤ listBound → ∀ reached, Relation.TransGen TurnsPage (m, token) reached →
            ∃ pages, m.ComesTo start pages reached)) := by
  refine ⟨fun fault ↦ ?_, ?_, fun start htoken ↦ ⟨list_crashes_iff hthrottle hfail htoken, fun hend ↦ ?_⟩⟩
  · rw [← position_eq_error_iff]
    cases hread : position token with
    | error fault' => simp [list_of_error hthrottle hfail hread]
    | ok start => simp [list_of_ok hthrottle hfail hread]
  · cases hread : position token with
    | error fault => rw [list_of_error hthrottle hfail hread]
    | ok start => rw [list_of_ok hthrottle hfail hread]
  · obtain ⟨page, hlist, hexact⟩ := exact_list hthrottle hfail htoken hend
    exact ⟨page, hlist, hexact, hexact.eq_last,
      fun hlength reached ↦ turnsPages hthrottle hfail hpos hlength htoken hend⟩

/-- Five partitions, which took the place of two and are listed in pages of two. -/
def fiveByTwo : InMemory :=
  ((create 2).reshard 5).withPageSize 2

/-- The page that starts at the third partition is followed by one more, which is the last. -/
theorem pages_exact_unless_end_overflows_fiveByTwo :
    fiveByTwo.injections.throttleListings = 0 ∧ fiveByTwo.injections.failListings = 0 ∧
      0 < fiveByTwo.pageSize ∧ StandsFor (some "+02") 2 ∧
      ∃ page, (fiveByTwo.list (some "+02")).1 = some (.ok page) ∧
        page.partitions.map (·.partition) = ["shardId-000000000004", "shardId-000000000005"] ∧
        page.next = some "4" ∧
        ∀ reached, Relation.TransGen TurnsPage (fiveByTwo, some "+02") reached →
          StandsFor reached.2 4 ∧ (reached.1.list reached.2).1 ≠ none := by
  have htoken : StandsFor (some "+02") 2 := position_eq_ok_iff.1 rfl
  obtain ⟨-, -, hpages⟩ := pages_exact_unless_end_overflows (m := fiveByTwo) rfl rfl (by decide) (some "+02")
  obtain ⟨page, hlist, hexact, -, hleads⟩ := (hpages 2 htoken).2 (by decide)
  refine ⟨rfl, rfl, by decide, htoken, page, hlist, ?_, ?_, fun reached h ↦ ?_⟩
  · rw [hexact.partitions]
    decide +kernel
  · rw [hexact.next]
    decide +kernel
  · obtain ⟨pages, hcomes⟩ := hleads (by decide) reached h
    have hlater : 2 < 2 + pages * 2 := hcomes.later
    have hinside : 2 + pages * 2 < 5 := hcomes.inside
    obtain rfl : pages = 1 := by omega
    obtain ⟨last, hlast, -⟩ := hcomes.exact
    exact ⟨hcomes.token, fun hnone ↦ nomatch hnone.symm.trans hlast⟩

/-- The greatest token lies far behind the only partition there is. It gets no last page but a crash. -/
theorem greatest_token_crashes :
    let m := (create 1).withPageSize 1
    StandsFor (some "18446744073709551615") (2 ^ 64 - 1) ∧ m.partitions.length < 2 ^ 64 - 1 ∧
      m.injections = {} ∧ (m.list (some "18446744073709551615")).1 = none ∧
      ¬ ∃ page, (m.list (some "18446744073709551615")).1 = some (.ok page) ∧ m.Exact (2 ^ 64 - 1) page := by
  intro m
  have htoken : StandsFor (some "18446744073709551615") (2 ^ 64 - 1) := position_eq_ok_iff.1 rfl
  have hcrash : (m.list (some "18446744073709551615")).1 = none :=
    (list_crashes_iff rfl rfl htoken).2 (by decide)
  exact ⟨htoken, by decide, rfl, hcrash, fun ⟨page, hpage, _⟩ ↦ nomatch hcrash.symm.trans hpage⟩

end Tidemark.InMemory
