import Mathlib

/-!
# Trimmed logs

A log gets entries under growing ids and forgets its oldest ones.  A reader asks for a
few entries after the id where it stopped.  It gets them in order and none twice, and
what it never gets was forgotten before it came there.
-/

namespace Solfees.Trimming

variable {Id Entry : Type*} [LinearOrder Id] [OrderBot Id]

/-- The entries that were ever added, with their ids, and how many of them are gone. -/
structure TrimmedLog (Id Entry : Type*) [LinearOrder Id] [OrderBot Id] where
  entries : List (Id × Entry)
  trimmed : ℕ
  sorted : (⊥ :: entries.map Prod.fst).SortedLT

namespace TrimmedLog

def empty : TrimmedLog Id Entry where
  entries := []
  trimmed := 0
  sorted := by simp [List.sortedLT_iff_pairwise]

/-- The id of the entry before a position; there is none before the first. -/
def idAt (log : TrimmedLog Id Entry) (position : ℕ) : Id :=
  ((⊥ :: log.entries.map Prod.fst)[position]?).getD ⊥

def lastId (log : TrimmedLog Id Entry) : Id :=
  log.idAt log.entries.length

theorem idAt_eq_getElem {log : TrimmedLog Id Entry} {position : ℕ}
    (h : position < (⊥ :: log.entries.map Prod.fst).length) :
    log.idAt position = (⊥ :: log.entries.map Prod.fst)[position] := by
  rw [idAt, List.getElem?_eq_getElem h, Option.getD_some]

@[simp]
theorem idAt_zero (log : TrimmedLog Id Entry) : log.idAt 0 = ⊥ := rfl

theorem idAt_succ {log : TrimmedLog Id Entry} {position : ℕ} {entry : Id × Entry}
    (h : log.entries[position]? = some entry) : log.idAt (position + 1) = entry.1 := by
  rw [idAt, List.getElem?_cons_succ, List.getElem?_map, h]
  rfl

theorem idAt_lt_idAt_iff {log : TrimmedLog Id Entry} {position position' : ℕ}
    (h : position ≤ log.entries.length) (h' : position' ≤ log.entries.length) :
    log.idAt position < log.idAt position' ↔ position < position' := by
  rw [idAt_eq_getElem (by simpa using Nat.lt_succ_of_le h),
    idAt_eq_getElem (by simpa using Nat.lt_succ_of_le h')]
  exact log.sorted.getElem_lt_getElem_iff

/-- A new entry, under an id after all others. -/
def push (log : TrimmedLog Id Entry) (id : Id) (entry : Entry) (hid : log.lastId < id) :
    TrimmedLog Id Entry where
  entries := log.entries ++ [(id, entry)]
  trimmed := log.trimmed
  sorted := by
    rw [List.map_append, ← List.cons_append, List.sortedLT_iff_pairwise, List.pairwise_append]
    refine ⟨log.sorted.pairwise, List.pairwise_singleton _ _, ?_⟩
    intro earlier hearlier later hlater
    obtain ⟨index, hindex, rfl⟩ := List.getElem_of_mem hearlier
    obtain rfl := List.mem_singleton.1 hlater
    refine lt_of_le_of_lt ?_ hid
    rw [lastId, idAt_eq_getElem (by simp)]
    exact log.sorted.getElem_le_getElem_iff.2 (by simpa using Nat.le_of_lt_succ hindex)

/-- Up to `count` more of the oldest entries are forgotten, but `retained` are kept. -/
def trim (log : TrimmedLog Id Entry) (count retained : ℕ) : TrimmedLog Id Entry :=
  { log with
    trimmed := max log.trimmed (min (log.trimmed + count) (log.entries.length - retained)) }

/-- The first entries after the cursor among those that are not forgotten. -/
def read (log : TrimmedLog Id Entry) (count : ℕ) (cursor : Id) : List (Id × Entry) :=
  ((log.entries.drop log.trimmed).filter fun entry => cursor < entry.1).take count

theorem idAt_lt_iff {log : TrimmedLog Id Entry} {position index : ℕ}
    (h : position ≤ log.entries.length) (hindex : index < log.entries.length) :
    log.idAt position < (log.entries[index]).1 ↔ position ≤ index := by
  rw [← idAt_succ (List.getElem?_eq_getElem hindex), idAt_lt_idAt_iff h hindex,
    Nat.lt_succ_iff]

/-- What comes after the id before a position is what stands there. -/
theorem filter_idAt (log : TrimmedLog Id Entry) {position : ℕ}
    (h : position ≤ log.entries.length) (start : ℕ) :
    (log.entries.drop start).filter (fun entry => log.idAt position < entry.1) =
      log.entries.drop (max start position) := by
  -- the entries before the position are dropped, those from it on are kept
  have hsplit : log.entries.drop start =
      (log.entries.drop start).take (position - start) ++
        log.entries.drop (max start position) := by
    rw [show max start position = start + (position - start) by omega, ← List.drop_drop,
      List.take_append_drop]
  rw [hsplit, List.filter_append, List.filter_eq_nil_iff.2, List.filter_eq_self.2,
    List.nil_append]
  · intro entry hentry
    obtain ⟨index, hindex, rfl⟩ := List.getElem_of_mem hentry
    rw [List.getElem_drop, decide_eq_true_iff, idAt_lt_iff h]
    omega
  · intro entry hentry
    obtain ⟨index, hindex, rfl⟩ := List.getElem_of_mem hentry
    rw [List.getElem_take, List.getElem_drop, decide_eq_true_iff, idAt_lt_iff h]
    rw [List.length_take] at hindex
    omega

theorem read_idAt (log : TrimmedLog Id Entry) {position : ℕ}
    (h : position ≤ log.entries.length) (count : ℕ) :
    log.read count (log.idAt position) =
      (log.entries.drop (max log.trimmed position)).take count := by
  rw [read, filter_idAt log h]

/-- Each entry stands in the log once. -/
theorem nodup (log : TrimmedLog Id Entry) : log.entries.Nodup :=
  List.Nodup.of_map _ (List.nodup_cons.1 log.sorted.nodup).2

/-- The log has grown. -/
structure Grows (log log' : TrimmedLog Id Entry) : Prop where
  entries : log.entries <+: log'.entries
  trimmed : log.trimmed ≤ log'.trimmed

theorem Grows.refl (log : TrimmedLog Id Entry) : log.Grows log :=
  ⟨List.prefix_rfl, le_rfl⟩

theorem Grows.trans {log log' log'' : TrimmedLog Id Entry} (h : log.Grows log')
    (h' : log'.Grows log'') : log.Grows log'' :=
  ⟨h.entries.trans h'.entries, h.trimmed.trans h'.trimmed⟩

theorem grows_push (log : TrimmedLog Id Entry) (id : Id) (entry : Entry)
    (hid : log.lastId < id) : log.Grows (log.push id entry hid) :=
  ⟨List.prefix_append _ _, le_rfl⟩

theorem grows_trim (log : TrimmedLog Id Entry) (count retained : ℕ) :
    log.Grows (log.trim count retained) :=
  ⟨List.prefix_rfl, le_max_left _ _⟩

/-- The ids stay where they are. -/
theorem Grows.idAt {log log' : TrimmedLog Id Entry} (h : log.Grows log') {position : ℕ}
    (hposition : position ≤ log.entries.length) : log'.idAt position = log.idAt position := by
  obtain ⟨more, hmore⟩ := h.entries
  rw [TrimmedLog.idAt, TrimmedLog.idAt, ← hmore, List.map_append, ← List.cons_append,
    List.getElem?_append_left (by simpa using Nat.lt_succ_of_le hposition)]

end TrimmedLog

/-! ## A reader -/

/-- Where a reader stopped, and what it has got. -/
structure Reader (Id Entry : Type*) where
  cursor : Id
  got : List (Id × Entry)

namespace Reader

def init : Reader Id Entry where
  cursor := ⊥
  got := []

/-- The reader goes on after the last entry of what it gets. -/
def take (reader : Reader Id Entry) (more : List (Id × Entry)) : Reader Id Entry where
  cursor := (more.getLast?.map Prod.fst).getD reader.cursor
  got := reader.got ++ more

/-- The reader has come to a position.  It has got what stands before it in order, and
what is missing was forgotten. -/
structure At (log : TrimmedLog Id Entry) (position : ℕ) (reader : Reader Id Entry) :
    Prop where
  le : position ≤ log.entries.length
  cursor : reader.cursor = log.idAt position
  sublist : reader.got.Sublist (log.entries.take position)
  missing : ∀ index < position, ∀ entry, log.entries[index]? = some entry →
    entry ∉ reader.got → index < log.trimmed

variable {log log' : TrimmedLog Id Entry} {position : ℕ} {reader : Reader Id Entry}

theorem at_init (log : TrimmedLog Id Entry) : At log 0 .init where
  le := Nat.zero_le _
  cursor := rfl
  sublist := List.nil_sublist _
  missing _ h := absurd h (Nat.not_lt_zero _)

theorem At.grow (h : At log position reader) (hgrows : log.Grows log') :
    At log' position reader where
  le := h.le.trans hgrows.entries.length_le
  cursor := h.cursor.trans (hgrows.idAt h.le).symm
  sublist := by
    obtain ⟨more, hmore⟩ := hgrows.entries
    rw [← hmore, List.take_append_of_le_length h.le]
    exact h.sublist
  missing := by
    intro index hindex entry hentry hmissing
    refine (h.missing index hindex entry ?_ hmissing).trans_le hgrows.trimmed
    obtain ⟨more, hmore⟩ := hgrows.entries
    rwa [← hmore, List.getElem?_append_left (hindex.trans_le h.le)] at hentry

/-- What a read gets. -/
theorem At.read_eq (h : At log position reader) (count : ℕ) :
    log.read count reader.cursor =
      (log.entries.drop (max log.trimmed position)).take count := by
  rw [h.cursor, log.read_idAt h.le]

/-- A read that gets nothing leaves the reader. -/
theorem At.take_nil (h : At log position reader) : At log position (reader.take []) := by
  obtain ⟨cursor, got⟩ := reader
  rwa [take, List.append_nil]

/-- What is read is what stands between two positions. -/
theorem At.exists_read (h : At log position reader) {count : ℕ}
    (hmore : log.read count reader.cursor ≠ []) :
    ∃ length, (log.read count reader.cursor).length = length + 1 ∧
      max log.trimmed position + length < log.entries.length ∧
      log.read count reader.cursor =
        (log.entries.drop (max log.trimmed position)).take (length + 1) := by
  have hlength := List.length_pos_iff.2 hmore
  obtain ⟨length, hlength⟩ := Nat.exists_eq_add_of_lt hlength
  rw [zero_add] at hlength
  refine ⟨length, hlength, ?_, ?_⟩
  · rw [h.read_eq, List.length_take, List.length_drop] at hlength
    omega
  · rw [h.read_eq, List.take_eq_take_min, ← hlength, h.read_eq, List.length_take]

/-- What the reader has not come to yet, forgotten or not. -/
def unread (log : TrimmedLog Id Entry) (reader : Reader Id Entry) : List (Id × Entry) :=
  log.entries.filter fun entry => reader.cursor < entry.1

theorem At.unread_eq (h : At log position reader) :
    unread log reader = log.entries.drop position := by
  have hunread := log.filter_idAt h.le 0
  rwa [List.drop_zero, Nat.zero_max, ← h.cursor] at hunread

/-- A read that gets something goes on to the position behind it. -/
theorem At.take (h : At log position reader) {count : ℕ}
    (hmore : log.read count reader.cursor ≠ []) :
    At log (max log.trimmed position + (log.read count reader.cursor).length)
      (reader.take (log.read count reader.cursor)) := by
  obtain ⟨length, hlength, hle, hread⟩ := h.exists_read hmore
  rw [hlength, hread]
  set start := max log.trimmed position with hstart
  have hsplit : log.entries.take (start + (length + 1)) =
      log.entries.take start ++ (log.entries.drop start).take (length + 1) :=
    List.take_add
  refine ⟨hle, ?_, ?_, ?_⟩
  · have hlast : ((log.entries.drop start).take (length + 1)).getLast? =
        some log.entries[start + length] := by
      rw [List.getLast?_eq_getElem?, List.length_take_of_le (by rw [List.length_drop]; omega),
        List.getElem?_take, if_pos (by omega), List.getElem?_drop, Nat.add_sub_cancel,
        List.getElem?_eq_getElem hle]
    rw [Reader.take, hlast, ← Nat.add_assoc,
      TrimmedLog.idAt_succ (List.getElem?_eq_getElem hle)]
    rfl
  · rw [hsplit]
    refine List.Sublist.append (h.sublist.trans ?_) (List.Sublist.refl _)
    exact List.take_sublist_take_left (le_max_right _ _)
  · intro index hindex entry hentry hmissing
    rw [Reader.take, List.mem_append, not_or] at hmissing
    rcases lt_or_ge index position with hbefore | hafter
    · exact h.missing index hbefore entry hentry hmissing.1
    · -- what stands between the position and the start is gone, the rest is read
      by_contra htrimmed
      have hfrom : start ≤ index := by omega
      refine hmissing.2 (List.mem_of_getElem? (i := index - start) ?_)
      rw [List.getElem?_take, if_pos (by omega), List.getElem?_drop,
        Nat.add_sub_cancel' hfrom, hentry]

/-- A read that gets something leaves less to read. -/
theorem At.unread_take (h : At log position reader) {count : ℕ}
    (hmore : log.read count reader.cursor ≠ []) :
    (unread log (reader.take (log.read count reader.cursor))).length <
      (unread log reader).length := by
  obtain ⟨length, hlength, hle, -⟩ := h.exists_read hmore
  rw [(h.take hmore).unread_eq, h.unread_eq, hlength, List.length_drop, List.length_drop]
  omega

/-- The reader has got all entries up to its cursor. -/
def Lossless (log : TrimmedLog Id Entry) (reader : Reader Id Entry) : Prop :=
  ∀ entry ∈ log.entries, entry.1 ≤ reader.cursor → entry ∈ reader.got

theorem At.lossless_iff (h : At log position reader) :
    Lossless log reader ↔ reader.got = log.entries.take position := by
  have hbefore {entry : Id × Entry} :
      entry ∈ log.entries ∧ entry.1 ≤ reader.cursor ↔ entry ∈ log.entries.take position := by
    rw [List.mem_take_iff_getElem, List.mem_iff_getElem, h.cursor]
    constructor
    · rintro ⟨⟨index, hindex, rfl⟩, hle⟩
      rw [← not_lt, TrimmedLog.idAt_lt_iff h.le hindex, not_le] at hle
      exact ⟨index, lt_min hle hindex, rfl⟩
    · rintro ⟨index, hindex, rfl⟩
      obtain ⟨hlt, hindex⟩ := lt_min_iff.1 hindex
      refine ⟨⟨index, hindex, rfl⟩, ?_⟩
      rwa [← not_lt, TrimmedLog.idAt_lt_iff h.le hindex, not_le]
  constructor
  · intro hall
    refine h.sublist.eq_of_length_le (List.subperm_of_subset ?_ ?_).length_le
    · exact log.nodup.sublist (List.take_sublist _ _)
    · exact fun entry hentry => (hbefore.2 hentry).elim (hall entry)
  · intro hgot entry hentry hle
    rw [hgot]
    exact hbefore.1 ⟨hentry, hle⟩

/-- What the reader passed over is gone. -/
theorem At.forgotten (h : At log position reader) (entry : Id × Entry)
    (hentry : entry ∈ log.entries) (hle : entry.1 ≤ reader.cursor)
    (hmissing : entry ∉ reader.got) : entry ∈ log.entries.take log.trimmed := by
  obtain ⟨index, hindex, rfl⟩ := List.getElem_of_mem hentry
  rw [h.cursor, ← not_lt, TrimmedLog.idAt_lt_iff h.le hindex, not_le] at hle
  have hgone := h.missing index hle _ (List.getElem?_eq_getElem hindex) hmissing
  exact List.mem_take_iff_getElem.2 ⟨index, lt_min hgone hindex, rfl⟩

/-- An entry behind the cursor was forgotten. -/
theorem At.exists_forgotten_iff (h : At log position reader)
    (htrimmed : log.trimmed ≤ log.entries.length) :
    (∃ entry ∈ log.entries.take log.trimmed, reader.cursor < entry.1) ↔
      ¬ log.trimmed ≤ position := by
  rw [h.cursor, not_le]
  constructor
  · rintro ⟨entry, hentry, hlt⟩
    obtain ⟨index, hindex, rfl⟩ := List.mem_take_iff_getElem.1 hentry
    obtain ⟨hforgotten, hindex⟩ := lt_min_iff.1 hindex
    exact ((TrimmedLog.idAt_lt_iff h.le hindex).1 hlt).trans_lt hforgotten
  · intro hlt
    have hindex := hlt.trans_le htrimmed
    exact ⟨log.entries[position], List.mem_take_iff_getElem.2
      ⟨position, lt_min hlt hindex, rfl⟩, (TrimmedLog.idAt_lt_iff h.le hindex).2 le_rfl⟩

theorem At.lossless_grow (h : At log position reader) (hgrows : log.Grows log') :
    Lossless log' reader ↔ Lossless log reader := by
  obtain ⟨more, hmore⟩ := hgrows.entries
  rw [(h.grow hgrows).lossless_iff, h.lossless_iff, ← hmore,
    List.take_append_of_le_length h.le]

/-- A read loses nothing if and only if nothing behind the position was forgotten. -/
theorem At.lossless_take_iff (h : At log position reader) {count : ℕ}
    (hmore : log.read count reader.cursor ≠ []) :
    Lossless log (reader.take (log.read count reader.cursor)) ↔
      Lossless log reader ∧ log.trimmed ≤ position := by
  rw [(h.take hmore).lossless_iff, h.lossless_iff]
  obtain ⟨length, hlength, hle, hread⟩ := h.exists_read hmore
  have hsplit : log.entries.take (max log.trimmed position + (length + 1)) =
      log.entries.take (max log.trimmed position) ++
        (log.entries.drop (max log.trimmed position)).take (length + 1) :=
    List.take_add
  rw [hlength, hread, hsplit]
  change reader.got ++ _ = _ ↔ _
  rw [List.append_cancel_right_eq]
  constructor
  · intro hgot
    have hshort := h.sublist.length_le
    rw [hgot, List.length_take_of_le (by omega), List.length_take_of_le h.le] at hshort
    have htrimmed : log.trimmed ≤ position := (le_max_left _ _).trans hshort
    rw [max_eq_right htrimmed] at hgot
    exact ⟨hgot, htrimmed⟩
  · rintro ⟨hgot, htrimmed⟩
    rw [max_eq_right htrimmed, hgot]

end Reader

/-! ## How much is kept -/

namespace TrimmedLog

/-- So many of the latest entries are never forgotten. -/
def Retains (log : TrimmedLog Id Entry) (retained : ℕ) : Prop :=
  log.trimmed ≤ log.entries.length - retained

variable {log : TrimmedLog Id Entry} {retained : ℕ}

theorem Retains.trimmed_le_length (h : log.Retains retained) :
    log.trimmed ≤ log.entries.length :=
  h.trans (Nat.sub_le _ _)

theorem retains_empty (retained : ℕ) : (empty : TrimmedLog Id Entry).Retains retained :=
  Nat.zero_le _

theorem Retains.push (h : log.Retains retained) {id : Id} {entry : Entry}
    (hid : log.lastId < id) : (log.push id entry hid).Retains retained := by
  rw [Retains, TrimmedLog.push, List.length_append]
  exact h.trans (by omega)

theorem Retains.trim (h : log.Retains retained) (count : ℕ) :
    (log.trim count retained).Retains retained :=
  max_le h (min_le_right _ _)

/-- A reader that is not too far behind has lost nothing. -/
theorem Retains.trimmed_le (h : log.Retains retained) {position : ℕ}
    (hbehind : log.entries.length ≤ position + retained) : log.trimmed ≤ position := by
  rw [Retains] at h
  omega

end TrimmedLog

end Solfees.Trimming
