import RemoteServer.Peer.IpTables
import RemoteServer.RustStd.Numbers

/-!
# The tables on the console

`check_cmd` prints the tables of `peer.rs` on the console: `ip-blocker` and `ip-changes` first drop
old entries, then print how many are left, and then ten of them or the one of a key.  The argument
is a number or the key.

* `showPage` is the loop over an iterator of the table, and `showPage_eq` says which entries it
  prints.
* `pageTable` is what both commands do.  They differ in the entries they keep, in the lines, and in
  the numbers that are looked up as a key: `ip-changes` also looks up a number above ten million,
  and then prints a page for it all the same.
* `console_pages`: a command prints the page of its number.  The end of the page is computed as an
  `i32`, and the ten greatest numbers overflow.
-/

namespace RemoteServer.Rendezvous

open RustStd

/-- The build of the program, `Debug` of a text, and the readings of the clock while a table is
pruned, while the entry of a key is printed, and while a page is printed.  A command reads the clock
for each window of an entry. -/
structure Console where
  overflowChecks : Bool
  debugStr : String → String
  pruned : String → Nat × Nat
  found : String → Nat × Nat
  printed : String → Nat × Nat

/-! ## Pages -/

section Page

variable {α : Type}

/-- `for i in i..stop` with `it.next()` in the body. -/
def showPage (line : α → String) (start stop : ℤ) : ℤ → List α → String
  | _, [] => ""
  | i, x :: it =>
    if i < stop then
      if i < start then showPage line start stop (i + 1) it
      else line x ++ showPage line start stop (i + 1) it
    else ""

/-- The entries from `start` to `stop` are printed. -/
theorem showPage_eq (line : α → String) (start stop i : ℤ) (it : List α) :
    showPage line start stop i it =
      String.join (((it.take (stop - i).toNat).drop (start - i).toNat).map line) := by
  induction it generalizing i with
  | nil => simp [showPage]
  | cons x it ih =>
    rw [showPage]
    split
    · rename_i hstop
      obtain ⟨n, hn⟩ : ∃ n, (stop - i).toNat = n + 1 := ⟨(stop - (i + 1)).toNat, by omega⟩
      have hrest : (stop - (i + 1)).toNat = n := by omega
      rw [hn, List.take_succ_cons]
      split
      · rename_i hstart
        obtain ⟨m, hm⟩ : ∃ m, (start - i).toNat = m + 1 := ⟨(start - (i + 1)).toNat, by omega⟩
        have hskip : (start - (i + 1)).toNat = m := by omega
        rw [hm, List.drop_succ_cons, ih, hrest, hskip]
      · rename_i hstart
        have hfirst : (start - i).toNat = 0 := by omega
        have hskip : (start - (i + 1)).toNat = 0 := by omega
        rw [hfirst, List.drop_zero, List.map_cons, String.join_cons, ih, hrest, hskip,
          List.drop_zero]
    · rename_i hstop
      have hnone : (stop - i).toNat = 0 := by omega
      rw [hnone]
      simp

end Page

/-! ## Commands -/

/-- How a command prints a table. -/
structure Listing (V : Type) where
  /-- The numbers that are looked up as a key. -/
  keyed : ℤ → Bool
  /-- The line of the entry of a key. -/
  foundLine : String → V → String
  /-- The line of an entry on a page. -/
  pageLine : String × V → String

section Table

variable {V : Type}

/-- The entry of a key is printed, and removed when a dash follows the key. -/
def lookupKey (listing : Listing V) (lock : HashMap String V) (key : String)
    (fds : List String) : HashMap String V × String :=
  let res := match lock.get key with
    | some value => listing.foundLine key value
    | none => ""
  (if fds.head? = some "-" then lock.remove key else lock, res)

/-- The ten entries from a position on. -/
def printPage (overflowChecks : Bool) (listing : Listing V) (lock : HashMap String V)
    (res : String) (start : ℤ) : Except Panic (HashMap String V × String) :=
  if 0 ≤ start then do
    let stop ← addI32 overflowChecks start 10
    return (lock, res ++ showPage listing.pageLine start stop 0 lock.entries)
  else return (lock, res)

/-- The number of the argument.  A key is none. -/
def startOf (fds : List String) : ℤ := (fds.head?.map fun x => (parseI32 x).getD (-1)).getD (-1)

/-- Both commands, after the table was pruned.  A number can be looked up and be a page. -/
def pageTable (overflowChecks : Bool) (listing : Listing V) (lock : HashMap String V)
    (fds : List String) : Except Panic (HashMap String V × String) :=
  let res := toString lock.len ++ "\n"
  let start := startOf fds
  if listing.keyed start then
    match fds.head? with
    | some key =>
      let (lock, line) := lookupKey listing lock key fds.tail
      printPage overflowChecks listing lock (res ++ line) start
    | none => printPage overflowChecks listing lock res 0
  else printPage overflowChecks listing lock res start

end Table

namespace Console

variable (console : Console)

/-- The counts of an entry of `IP_BLOCKER`, with the seconds since each window started. -/
def blockText (readings : Nat × Nat) (entry : IpBlockEntry) : String :=
  toString entry.requests.1 ++ "/" ++
    toString (Instant.elapsedSecs readings.1 entry.requests.2) ++ "s " ++
    toString entry.ids.1.card ++ "/" ++
    toString (Instant.elapsedSecs readings.2 entry.ids.2) ++ "s\n"

/-- `Debug` of the addresses of an id. -/
def debugIps (ips : HashMap String Nat) : String :=
  "\x7b" ++ ", ".intercalate (ips.entries.map fun e =>
    console.debugStr e.1 ++ ": " ++ toString e.2) ++ "\x7d"

/-- An entry of `IP_CHANGES`. -/
def changeText (reading : Nat) (entry : Nat × HashMap String Nat) : String :=
  toString (Instant.elapsedSecs reading entry.1) ++ "s " ++ console.debugIps entry.2 ++ "\n"

def blockerListing : Listing IpBlockEntry where
  keyed start := decide (start < 0)
  foundLine ip entry := blockText (console.found ip) entry
  pageLine e := e.1 ++ ": " ++ blockText (console.printed e.1) e.2

def changesListing : Listing (Nat × HashMap String Nat) where
  keyed start := decide ¬(0 ≤ start ∧ start ≤ 10000000)
  foundLine id entry := console.changeText (console.found id).1 entry
  pageLine e := e.1 ++ ": " ++ console.changeText (console.printed e.1).1 e.2

/-- The entries of `IP_BLOCKER` that `ip-blocker` keeps. -/
def keptBlockers (blockers : IpBlockMap) : IpBlockMap := (listIpBlockers blockers console.pruned).1

/-- The entries of `IP_CHANGES` that `ip-changes` keeps. -/
def keptChanges (changes : IpChangesMap) : IpChangesMap :=
  changes.retain fun id entry =>
    decide (Instant.elapsedSecs (console.pruned id).1 entry.1 < ipChangeDurX2) &&
      decide (1 < entry.2.len)

/-- `ip-blocker`. -/
def ipBlocker (blockers : IpBlockMap) (fds : List String) : Except Panic (IpBlockMap × String) :=
  pageTable console.overflowChecks console.blockerListing (console.keptBlockers blockers) fds

/-- `ip-changes`. -/
def ipChanges (changes : IpChangesMap) (fds : List String) : Except Panic (IpChangesMap × String) :=
  pageTable console.overflowChecks console.changesListing (console.keptChanges changes) fds

/-- `check_cmd` for the two commands: the tables afterwards and the text.  Another command has no
value here. -/
def checkCmd (blockers : IpBlockMap) (changes : IpChangesMap) (cmd : String) :
    Option (Except Panic (IpBlockMap × IpChangesMap × String)) :=
  match Str.split ' ' (Str.trim cmd) with
  | [] => none
  | word :: fds =>
    if word = "ip-blocker" ∨ word = "ib" then
      some ((console.ipBlocker blockers fds).map fun r => (r.1, changes, r.2))
    else if word = "ip-changes" ∨ word = "ic" then
      some ((console.ipChanges changes fds).map fun r => (blockers, r.1, r.2))
    else none

end Console

/-! ## Numbers -/

section Numbers

variable {V : Type} (listing : Listing V) (overflowChecks : Bool) (lock : HashMap String V)
  {fds : List String} {start : ℤ}

/-- The last number with a page that ends at an `i32`. -/
def lastStart : ℤ := 2147483637

theorem addI32_ten (hpos : 0 ≤ start) (hmax : start ≤ lastStart) :
    addI32 overflowChecks start 10 = .ok (start + 10) := by
  rw [lastStart] at hmax
  rw [addI32, if_pos]
  rw [i32Min, i32Max]
  omega

/-- The lines of the ten entries from a position on. -/
def pageText (listing : Listing V) (lock : HashMap String V) (start : Nat) : String :=
  String.join (((lock.entries.drop start).take 10).map listing.pageLine)

theorem printPage_eq (res : String) (hmax : start ≤ lastStart) :
    printPage overflowChecks listing lock res start =
      .ok (lock, res ++ if 0 ≤ start then pageText listing lock start.toNat else "") := by
  rw [printPage]
  split
  · rename_i hpos
    have hcount : (start + 10).toNat - start.toNat = 10 := by omega
    have hpage : showPage listing.pageLine start (start + 10) 0 lock.entries =
        pageText listing lock start.toNat := by
      rw [showPage_eq, sub_zero, sub_zero, List.drop_take, hcount, pageText]
    rw [addI32_ten overflowChecks hpos hmax, ← hpage]
    rfl
  · rw [String.append_empty]
    rfl

/-- A command comes to its end, whatever the build, unless its number is one of the ten greatest. -/
theorem pageTable_ok (hmax : startOf fds ≤ lastStart) :
    ∃ r, ∀ overflowChecks, pageTable overflowChecks listing lock fds = .ok r := by
  simp only [pageTable]
  split
  · split
    · exact ⟨_, fun overflowChecks => printPage_eq listing overflowChecks _ _ hmax⟩
    · exact ⟨_, fun overflowChecks => printPage_eq listing overflowChecks _ _ (by decide)⟩
  · exact ⟨_, fun overflowChecks => printPage_eq listing overflowChecks _ _ hmax⟩

/-- A number that is not looked up is the start of a page. -/
theorem pageTable_page (hkeyed : listing.keyed (startOf fds) = false) (hpos : 0 ≤ startOf fds)
    (hmax : startOf fds ≤ lastStart) :
    pageTable overflowChecks listing lock fds =
      .ok (lock, toString lock.len ++ "\n" ++ pageText listing lock (startOf fds).toNat) := by
  rw [pageTable, hkeyed, if_neg Bool.false_ne_true, printPage_eq listing overflowChecks _ _ hmax,
    if_pos hpos]

/-- The ten greatest numbers have no page. -/
theorem pageTable_overflow (hmax : lastStart < startOf fds) :
    pageTable true listing lock fds = .error .addOverflow := by
  have hpanic : ∀ lock res, printPage true listing lock res (startOf fds) =
      .error .addOverflow := by
    intro lock res
    have hpos : 0 ≤ startOf fds := le_of_lt (lt_trans (by decide) hmax)
    have hsum : ¬(i32Min ≤ startOf fds + 10 ∧ startOf fds + 10 ≤ i32Max) := by
      rw [lastStart] at hmax
      rw [i32Min, i32Max]
      omega
    rw [printPage, if_pos hpos, addI32, if_neg hsum]
    rfl
  simp only [pageTable]
  split
  · split
    · exact hpanic _ _
    · rename_i hnone
      rw [startOf, hnone] at hmax
      exact absurd hmax (by decide)
  · exact hpanic _ _

end Numbers

section Commands

variable {console : Console} {blockers : IpBlockMap} {changes : IpChangesMap} {cmd word : String}
  {fds : List String}

theorem checkCmd_ipBlocker (hcmd : Str.split ' ' (Str.trim cmd) = word :: fds)
    (hword : word = "ip-blocker" ∨ word = "ib") :
    console.checkCmd blockers changes cmd =
      some ((console.ipBlocker blockers fds).map fun r => (r.1, changes, r.2)) := by
  rw [Console.checkCmd, hcmd]
  exact if_pos hword

theorem checkCmd_ipChanges (hcmd : Str.split ' ' (Str.trim cmd) = word :: fds)
    (hword : word = "ip-changes" ∨ word = "ic") :
    console.checkCmd blockers changes cmd =
      some ((console.ipChanges changes fds).map fun r => (blockers, r.1, r.2)) := by
  rw [Console.checkCmd, hcmd]
  have hother : ¬(word = "ip-blocker" ∨ word = "ib") := by
    rcases hword with rfl | rfl <;> decide
  exact (if_neg hother).trans (if_pos hword)

/-- `ip-blocker` and `ip-changes` for every table and every text after the command whose number is
none of the ten greatest: the command ends with one result in every build, so no sum overflows, and
it prints the count and the ten entries from the position of its number on. -/
theorem console_pages (console : Console) (blockers : IpBlockMap) (changes : IpChangesMap)
    (hcmd : Str.split ' ' (Str.trim cmd) = word :: fds) (hmax : startOf fds ≤ lastStart) :
    (word = "ip-blocker" ∨ word = "ib" →
      (∃ r, ∀ overflowChecks, ({ console with overflowChecks }).checkCmd blockers changes cmd =
        some (.ok r)) ∧
      (0 ≤ startOf fds → console.checkCmd blockers changes cmd =
        some (.ok (console.keptBlockers blockers, changes,
          toString (console.keptBlockers blockers).len ++ "\n" ++
            pageText console.blockerListing (console.keptBlockers blockers)
              (startOf fds).toNat)))) ∧
    (word = "ip-changes" ∨ word = "ic" →
      (∃ r, ∀ overflowChecks, ({ console with overflowChecks }).checkCmd blockers changes cmd =
        some (.ok r)) ∧
      (0 ≤ startOf fds → startOf fds ≤ 10000000 → console.checkCmd blockers changes cmd =
        some (.ok (blockers, console.keptChanges changes,
          toString (console.keptChanges changes).len ++ "\n" ++
            pageText console.changesListing (console.keptChanges changes)
              (startOf fds).toNat)))) := by
  refine ⟨fun hword => ⟨?_, fun hpos => ?_⟩, fun hword => ⟨?_, fun hpos hpage => ?_⟩⟩
  · obtain ⟨r, hr⟩ := pageTable_ok console.blockerListing (console.keptBlockers blockers) hmax
    refine ⟨(r.1, changes, r.2), fun overflowChecks => ?_⟩
    rw [checkCmd_ipBlocker hcmd hword]
    exact congrArg (fun x => some (Except.map _ x)) (hr overflowChecks)
  · have hkeyed : console.blockerListing.keyed (startOf fds) = false :=
      decide_eq_false (not_lt.2 hpos)
    rw [checkCmd_ipBlocker hcmd hword, Console.ipBlocker, pageTable_page _ _ _ hkeyed hpos hmax]
    rfl
  · obtain ⟨r, hr⟩ := pageTable_ok console.changesListing (console.keptChanges changes) hmax
    refine ⟨(blockers, r.1, r.2), fun overflowChecks => ?_⟩
    rw [checkCmd_ipChanges hcmd hword]
    exact congrArg (fun x => some (Except.map _ x)) (hr overflowChecks)
  · have hkeyed : console.changesListing.keyed (startOf fds) = false :=
      decide_eq_false (not_not.2 ⟨hpos, hpage⟩)
    rw [checkCmd_ipChanges hcmd hword, Console.ipChanges, pageTable_page _ _ _ hkeyed hpos hmax]
    rfl

/-- The clock stands at five seconds. -/
def stillConsole (overflowChecks : Bool) : Console where
  overflowChecks := overflowChecks
  debugStr s := s
  pruned _ := (5000000000, 5000000000)
  found _ := (5000000000, 5000000000)
  printed _ := (5000000000, 5000000000)

/-- Two addresses that were counted at the start. -/
def twoBlockers : IpBlockMap where
  entries := [("192.0.2.1", ⟨(1, 0), (∅, 0)⟩), ("192.0.2.2", ⟨(3, 0), (∅, 0)⟩)]
  nodup := by decide

theorem console_pages_second :
    startOf ["1"] ≤ lastStart ∧
    (stillConsole true).checkCmd twoBlockers .empty "ip-blocker 1" =
      some (.ok ((stillConsole true).keptBlockers twoBlockers, .empty,
        "2\n192.0.2.2: 3/5s 0/5s\n")) := by
  have hmax : startOf ["1"] ≤ lastStart := by decide +kernel
  refine ⟨hmax, ?_⟩
  have hcmd : Str.split ' ' (Str.trim "ip-blocker 1") = ["ip-blocker", "1"] := by decide +kernel
  rw [((console_pages (stillConsole true) twoBlockers .empty hcmd hmax).1 (Or.inl rfl)).2
    (by decide +kernel)]
  have htext : toString ((stillConsole true).keptBlockers twoBlockers).len ++ "\n" ++
      pageText (stillConsole true).blockerListing ((stillConsole true).keptBlockers twoBlockers)
        (startOf ["1"]).toNat = "2\n192.0.2.2: 3/5s 0/5s\n" := by decide +kernel
  rw [htext]

/-- The end of the page after the greatest number is no `i32`.  With overflow checks both commands
panic; otherwise the range is empty. -/
theorem greatest_number_overflows :
    (stillConsole true).checkCmd .empty .empty "ip-blocker 2147483647" =
      some (.error .addOverflow) ∧
    (stillConsole true).checkCmd .empty .empty "ip-changes 2147483647" =
      some (.error .addOverflow) ∧
    (stillConsole false).checkCmd .empty .empty "ip-blocker 2147483647" =
      some (.ok (.empty, .empty, "0\n")) := by
  have hblocker : Str.split ' ' (Str.trim "ip-blocker 2147483647") =
      ["ip-blocker", "2147483647"] := by decide +kernel
  have hchanges : Str.split ' ' (Str.trim "ip-changes 2147483647") =
      ["ip-changes", "2147483647"] := by decide +kernel
  have hmax : lastStart < startOf ["2147483647"] := by decide +kernel
  refine ⟨?_, ?_, ?_⟩
  · rw [checkCmd_ipBlocker hblocker (Or.inl rfl), Console.ipBlocker]
    exact congrArg (fun x => some (Except.map _ x)) (pageTable_overflow _ _ hmax)
  · rw [checkCmd_ipChanges hchanges (Or.inl rfl), Console.ipChanges]
    exact congrArg (fun x => some (Except.map _ x)) (pageTable_overflow _ _ hmax)
  · rw [checkCmd_ipBlocker hblocker (Or.inl rfl)]
    rfl

end Commands

end RemoteServer.Rendezvous
