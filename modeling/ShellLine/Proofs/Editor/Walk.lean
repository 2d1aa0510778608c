import ShellLine.Proofs.Editor.History

/-!
# Proofs/Editor/Walk — a history is only asked for what it has

A lookup takes the entry that the position names and fails where there is none: nothing guards it
(`History.lookUp`).  The calls that move the position or add an entry keep it in range, whatever the
limit is, a negative one included; so a walk over a new history never fails (`History.callAll_empty`).

`HoldsEntered` is what each call keeps up: the position is in range, and the entries are the newest of
those that were entered, as many as the limit allows.  A negative limit allows none.
-/

namespace ShellLine

namespace History

/-! ## Looking up -/

/-- An entry was looked up that is not there. -/
structure OutOfRange
  deriving DecidableEq

/-- Look up the entry that is recalled, if one is. -/
def lookUp (h : History) : Except OutOfRange (Option (List Char)) :=
  if h.position = 0 then .ok none
  else
    match h.entries[h.position - 1]? with
    | some entry => .ok (some entry)
    | none => .error ⟨⟩

variable {h : History} {lines : List (List Char)}

/-- **A lookup fails** exactly where the history stands on an entry that it does not have. -/
theorem lookUp_eq_error_iff {e : OutOfRange} : h.lookUp = .error e ↔ h.IsDangling := by
  rw [lookUp, IsDangling, current?]
  by_cases hzero : h.position = 0
  · rw [if_pos hzero]
    simp only [hzero, ne_eq, not_true_eq_false, false_and, reduceCtorEq]
  · rw [if_neg hzero, if_neg hzero]
    cases h.entries[h.position - 1]? with
    | some entry => simp only [reduceCtorEq, and_false]
    | none => simp only [ne_eq, hzero, not_false_eq_true, and_self]

/-- Where it does not fail it gives the entry that is recalled. -/
theorem lookUp_of_not_isDangling (hdangling : ¬h.IsDangling) : h.lookUp = .ok h.current? := by
  cases hlookUp : h.lookUp with
  | error e => exact absurd (lookUp_eq_error_iff.1 hlookUp) hdangling
  | ok entry? =>
    rw [lookUp] at hlookUp
    rw [current?]
    split at hlookUp
    next hzero => rw [if_pos hzero, hlookUp]
    next hne =>
      rw [if_neg hne]
      split at hlookUp
      next hsome => rw [hsome, hlookUp]
      next => cases hlookUp

theorem lookUp_of_le (hle : h.position ≤ h.entries.length) : h.lookUp = .ok h.current? :=
  lookUp_of_not_isDangling (not_isDangling_of_le hle)

/-! ## Calls -/

/-- What a history can be asked for. -/
inductive Call
  | push (line : List Char)
  | older
  | newer
  | current
  | reset

/-- What the call enters: a line, unless that is empty. -/
def Call.entered : Call → List (List Char)
  | push line => if line = [] then [] else [line]
  | _ => []

/-- The history after a call, and the entry that it answers with. A step is followed by a lookup. -/
def call (h : History) : Call → Except OutOfRange (History × Option (List Char))
  | .push line => .ok (h.push line, none)
  | .older => h.older.lookUp.map fun entry? => (h.older, entry?)
  | .newer => h.newer.lookUp.map fun entry? => (h.newer, entry?)
  | .current => h.lookUp.map fun entry? => (h, entry?)
  | .reset => .ok (h.reset, none)

/-- The history after some calls, one after the other, and all answers. The first failure ends it. -/
def callAll : History → List Call → Except OutOfRange (History × List (Option (List Char)))
  | h, [] => .ok (h, [])
  | h, c :: calls =>
    match h.call c with
    | .error e => .error e
    | .ok (h', entry?) => (callAll h' calls).map fun r => (r.1, entry? :: r.2)

/-- What is kept under a limit of the entries that were kept and a new one. -/
theorem trim_cons_cutTo (limit? : Option Int) (line : List Char) (l : List (List Char)) :
    trim limit? (line :: cutTo limit? l) = cutTo limit? (line :: l) := by
  by_cases hlimit : ∀ m ∈ limit?, 0 ≤ m
  · rw [trim_eq_cutTo hlimit]
    exact cutTo_append_cutTo limit? [line] l
  · -- nothing was kept, and of a single entry a negative limit leaves nothing
    simp only [not_forall, Int.not_le] at hlimit
    obtain ⟨m, rfl, hm⟩ := hlimit
    have hnone : m.toNat = 0 := Int.toNat_of_nonpos (Int.le_of_lt hm)
    have hcut : cut 1 m = 0 := by
      rw [cut, if_pos hm]
      omega
    rw [cutTo, cutTo, hnone, List.take_zero, List.take_zero, trim, List.length_singleton,
      if_pos (by omega), hcut, List.take_zero]

/-- What a history keeps up when some lines were entered. -/
structure HoldsEntered (h : History) (lines : List (List Char)) : Prop where
  position_le : h.position ≤ h.entries.length
  entries_eq : h.entries = cutTo h.limit? lines.reverse

theorem holdsEntered_empty (limit? : Option Int) : (empty limit?).HoldsEntered [] where
  position_le := Nat.le_refl 0
  entries_eq := (cutTo_nil limit?).symm

theorem HoldsEntered.push (hh : h.HoldsEntered lines) (line : List Char) :
    (h.push line).HoldsEntered (lines ++ (Call.push line).entered) := by
  rw [Call.entered]
  split
  next hnil =>
    rw [hnil, push_nil, List.append_nil]
    exact hh
  next hne =>
    rw [push_of_ne_nil hne, hh.entries_eq, trim_cons_cutTo]
    refine ⟨Nat.zero_le _, ?_⟩
    rw [List.reverse_append, List.reverse_singleton, List.singleton_append]

/-- **One call** of a history that holds what was entered is answered. -/
theorem HoldsEntered.exists_call (hh : h.HoldsEntered lines) (c : Call) :
    ∃ h' entry?, h.call c = .ok (h', entry?) ∧ h'.limit? = h.limit? ∧
      h'.HoldsEntered (lines ++ c.entered) := by
  have hstep : ∀ h' : History, h'.entries = h.entries → h'.limit? = h.limit? →
      h'.position ≤ h'.entries.length → h'.HoldsEntered (lines ++ []) := by
    intro h' hentries hlimit hle
    rw [List.append_nil]
    exact ⟨hle, by rw [hentries, hlimit, hh.entries_eq]⟩
  cases c with
  | push line => exact ⟨_, _, rfl, limit?_push h line, hh.push line⟩
  | older =>
    have hle : h.older.position ≤ h.older.entries.length := position_older_le h
    refine ⟨h.older, h.older.current?, ?_, rfl, hstep h.older rfl rfl hle⟩
    rw [call, lookUp_of_le hle]
    rfl
  | newer =>
    have hle : h.newer.position ≤ h.newer.entries.length := position_newer_le hh.position_le
    refine ⟨h.newer, h.newer.current?, ?_, rfl, hstep h.newer rfl rfl hle⟩
    rw [call, lookUp_of_le hle]
    rfl
  | current =>
    refine ⟨h, h.current?, ?_, rfl, hstep h rfl rfl hh.position_le⟩
    rw [call, lookUp_of_le hh.position_le]
    rfl
  | reset => exact ⟨_, _, rfl, rfl, hstep h.reset rfl rfl (Nat.zero_le _)⟩

/-- **A walk** over a history that holds what was entered is answered call by call. -/
theorem HoldsEntered.exists_callAll (hh : h.HoldsEntered lines) (calls : List Call) :
    ∃ h' answers, h.callAll calls = .ok (h', answers) ∧ h'.limit? = h.limit? ∧
      h'.HoldsEntered (lines ++ calls.flatMap Call.entered) := by
  induction calls generalizing h lines with
  | nil =>
    rw [List.flatMap_nil, List.append_nil]
    exact ⟨h, [], rfl, rfl, hh⟩
  | cons c calls ih =>
    obtain ⟨h₁, entry?, hcall, hlimit, hh₁⟩ := hh.exists_call c
    obtain ⟨h', answers, hcalls, hlimit', hh'⟩ := ih hh₁
    refine ⟨h', entry? :: answers, ?_, hlimit'.trans hlimit, ?_⟩
    · rw [callAll, hcall]
      dsimp only
      rw [hcalls]
      rfl
    · rwa [List.flatMap_cons, ← List.append_assoc]

/-! ## What the next call does -/

/-- The call moves to a position and answers with what is looked up there. -/
def MovesTo (h : History) (c : Call) (n : Nat) : Prop :=
  ∃ entry?, h.call c = .ok ({ h with position := n }, entry?) ∧
    lookUp { h with position := n } = .ok entry?

/-- A history is a walk with an end on either side: a lookup gives the entry of the position, a step
goes to the next position and stays where there is none, and entering a line leads back to the
start. -/
structure IsWalk (h : History) : Prop where
  position_le : h.position ≤ h.entries.length
  lookUp_eq : h.lookUp = .ok (if h.position = 0 then none else h.entries[h.position - 1]?)
  lookUp_eq_none_iff : h.lookUp = .ok none ↔ h.position = 0
  current : h.MovesTo .current h.position
  older : h.MovesTo .older (min (h.position + 1) h.entries.length)
  newer : ∃ n : Nat, (n : Int) = max ((h.position : Int) - 1) 0 ∧ h.MovesTo .newer n
  reset : h.call .reset = .ok ({ h with position := 0 }, none)
  push : ∀ line ≠ [], ∃ h', h.call (.push line) = .ok (h', none) ∧ h'.position = 0
  push_nil : h.call (.push []) = .ok (h, none)

theorem movesTo_of_le {c : Call} {n : Nat} (hn : n ≤ h.entries.length)
    (hcall : h.call c =
      (lookUp { h with position := n }).map fun entry? => ({ h with position := n }, entry?)) :
    h.MovesTo c n := by
  have hlookUp := lookUp_of_le (h := { h with position := n }) hn
  rw [hlookUp] at hcall
  exact ⟨_, hcall, hlookUp⟩

/-- A position in range makes a walk. -/
theorem isWalk_of_le (hle : h.position ≤ h.entries.length) : h.IsWalk where
  position_le := hle
  lookUp_eq := lookUp_of_le hle
  lookUp_eq_none_iff := by
    rw [lookUp_of_le hle, Except.ok.injEq]
    refine ⟨fun hnone => ?_, current?_of_position⟩
    by_contra hne
    exact not_isDangling_of_le hle ⟨hne, hnone⟩
  current := movesTo_of_le hle rfl
  older := movesTo_of_le (Nat.min_le_right ..) rfl
  newer := ⟨h.position - 1, by omega, movesTo_of_le (by omega) rfl⟩
  reset := rfl
  push line hne := ⟨h.push line, rfl, congrArg position (push_of_ne_nil hne)⟩
  push_nil := rfl

/-- **A walk over a new history never fails**, whatever its limit is.  After any calls the history
holds the lines that were entered, newest first, as many as the limit allows, and the next call does
what it does on a walk with an end on either side. -/
theorem callAll_empty (limit? : Option Int) (calls : List Call) :
    ∃ h answers, (empty limit?).callAll calls = .ok (h, answers) ∧ h.IsWalk ∧
      h.entries = cutTo limit? (calls.flatMap Call.entered).reverse := by
  obtain ⟨h, answers, hcalls, hlimit, hh⟩ := (holdsEntered_empty limit?).exists_callAll calls
  have hentries := hh.entries_eq
  rw [List.nil_append, hlimit] at hentries
  exact ⟨h, answers, hcalls, isWalk_of_le hh.position_le, hentries⟩

/-- Two lines are entered where none may be kept, and then the walk goes on. -/
example : (empty (some (-1))).callAll [.push ['a'], .push ['b'], .older, .newer] =
    .ok (empty (some (-1)), [none, none, none, none]) := by
  decide

end History

end ShellLine
