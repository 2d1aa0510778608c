import Mathlib.Data.List.TakeWhile
import ShellLine.Proofs.Stream.Runs

/-!
# Proofs/Stream/Boundaries — a stream of items does not depend on where reads end

Items are keys and pastes.  When their bytes come in any number of reads, cut anywhere, the same
items come out (`run_items`).  The only condition is that keys do not make up the first mark of a
paste by accident.

The engine is `absorb_of_awaits`: if what is taken in is the front part of the bytes of some items,
then the first of these items are passed on, and what is left over is the front part of the bytes of
the others.
-/

namespace ShellLine

/-! ## Items -/

/-- Are the bytes a paste with its marks, whose body holds no last mark? -/
def IsPaste (x : List UInt8) : Prop := ∃ body, x = pasteSequence body ∧ ¬ pasteEnd <:+: body

/-- The longest runs of keys among some items. -/
def keyRuns (items : List (List UInt8)) : List (List (List UInt8)) :=
  items.splitOnP fun x => !decide (IsKey x)

/-- Keys and pastes, where no run of keys holds the first mark of a paste. -/
structure IsItemStream (items : List (List UInt8)) : Prop where
  each : ∀ x ∈ items, IsKey x ∨ IsPaste x
  runs : ∀ run ∈ keyRuns items, ¬ pasteStart <:+: run.flatten

/-- Runs of keys with pastes between them. -/
inductive IsSegmented : List (List UInt8) → Prop
  | keys {keys : List (List UInt8)} (hkeys : IsKeyRun keys) : IsSegmented keys
  | paste {keys rest : List (List UInt8)} {body : List UInt8} (hkeys : IsKeyRun keys)
      (hend : ¬ pasteEnd <:+: body) (hrest : IsSegmented rest) :
      IsSegmented (keys ++ pasteSequence body :: rest)

/-- Items begin with some keys, which are all of them or stand in front of a paste. -/
theorem IsItemStream.keys_or_paste {items : List (List UInt8)} (h : IsItemStream items) :
    ∃ keys, IsKeyRun keys ∧ (items = keys ∨
      ∃ body rest, items = keys ++ pasteSequence body :: rest ∧ ¬ pasteEnd <:+: body ∧
        IsItemStream rest) := by
  have hsplit := List.takeWhile_append_dropWhile (p := fun x => decide (IsKey x)) (l := items)
  have hkeys : ∀ x ∈ items.takeWhile fun x => decide (IsKey x), IsKey x := fun x hx => by
    simpa using List.mem_takeWhile_imp hx
  have hhead := List.head?_dropWhile_not (fun x => decide (IsKey x)) items
  generalize items.takeWhile (fun x => decide (IsKey x)) = keys at hsplit hkeys
  generalize items.dropWhile (fun x => decide (IsKey x)) = later at hsplit hhead
  subst hsplit
  refine ⟨keys, ?_⟩
  cases later with
  | nil =>
    have hruns : keyRuns (keys ++ []) = [keys] := by
      rw [List.append_nil]
      exact List.splitOnP_eq_singleton fun x hx => by simpa using hkeys x hx
    exact ⟨⟨hkeys, h.runs keys (hruns ▸ List.mem_singleton_self keys)⟩, .inl (List.append_nil keys)⟩
  | cons x rest =>
    have hx : ¬ IsKey x := by simpa using hhead
    have hruns : keyRuns (keys ++ x :: rest) = keys :: keyRuns rest :=
      List.splitOnP_append_cons_of_forall_mem (fun y hy => by simpa using hkeys y hy) x (by simpa)
        rest
    obtain ⟨body, rfl, hend⟩ := (h.each x (by simp)).resolve_left hx
    refine ⟨⟨hkeys, h.runs keys (by simp [hruns])⟩, .inr ⟨body, rest, rfl, hend, ?_, ?_⟩⟩
    · exact fun y hy => h.each y (by simp [hy])
    · exact fun run hrun => h.runs run (by simp [hruns, hrun])

theorem IsItemStream.isSegmented {items : List (List UInt8)} (h : IsItemStream items) :
    IsSegmented items := by
  obtain ⟨keys, hkeys, heq | ⟨body, rest, heq, hend, hrest⟩⟩ := h.keys_or_paste
  · exact heq ▸ .keys hkeys
  · have ih := hrest.isSegmented
    exact heq ▸ .paste hkeys hend ih
termination_by items.length
decreasing_by
  rw [heq, List.length_append, List.length_cons]
  omega

/-! ## One read -/

/-- What is pending and what comes later are together the bytes of the items `todo`. -/
def Pending.Awaits (todo : List (List UInt8)) (later : List UInt8) : Pending → Prop
  | .held data => IsSegmented todo ∧ data ++ later = todo.flatten
  | .pasting data => ∃ body rest, todo = pasteSequence body :: rest ∧ ¬ pasteEnd <:+: body ∧
      IsSegmented rest ∧ data ++ later = body ++ pasteEnd ++ rest.flatten

theorem flatten_append_pasteSequence (keys rest : List (List UInt8)) (body : List UInt8) :
    (keys ++ pasteSequence body :: rest).flatten =
      keys.flatten ++ (pasteStart ++ (body ++ pasteEnd ++ rest.flatten)) := by
  simp [pasteSequence]

theorem isKey_pasteStart : IsKey pasteStart := by decide +kernel

/-- Keys that are whole before the first mark of a paste are taken out, the others wait. -/
theorem splitKeys_of_no_start {keys : List (List UInt8)} (hkeys : ∀ x ∈ keys, IsKey x)
    {data later tail : List UInt8} (hdata : ¬ pasteStart <:+: data)
    (heq : data ++ later = keys.flatten ++ (pasteStart ++ tail)) :
    ∃ todo, keys = (splitKeys data).1 ++ todo ∧
      (splitKeys data).2 ++ later = todo.flatten ++ (pasteStart ++ tail) := by
  have hall : ∀ x ∈ keys ++ [pasteStart], IsKey x := by
    simpa [or_imp, forall_and] using ⟨hkeys, isKey_pasteStart⟩
  have hflat : (keys ++ [pasteStart]).flatten = keys.flatten ++ pasteStart := by simp
  rw [← List.append_assoc, List.append_eq_append_iff] at heq
  obtain ⟨t, ht, rfl⟩ | ⟨t, rfl, -⟩ := heq
  · obtain ⟨todo, htodo, hlater⟩ := splitKeys_of_append_eq hall (hflat.trans ht).symm
    obtain rfl | ⟨front, y, rfl⟩ := List.eq_nil_or_concat todo
    · obtain ⟨-, rfl⟩ := List.append_eq_nil_iff.1 (hlater.trans List.flatten_nil)
      rw [List.append_nil] at ht
      exact absurd ⟨keys.flatten, [], by rw [List.append_nil, ht]⟩ hdata
    · rw [List.concat_eq_append, ← List.append_assoc] at htodo
      obtain ⟨rfl, hy⟩ := List.append_inj' htodo rfl
      obtain rfl : pasteStart = y := by simpa using hy
      refine ⟨front, rfl, ?_⟩
      rw [← List.append_assoc, hlater]
      simp
  · exact absurd ⟨keys.flatten, t, by simp⟩ hdata

/-- **Bytes of items give the first of these items and leave the others to come.** -/
theorem absorb_of_awaits (pasting : Bool) (data : List UInt8) :
    ∀ later todo, (Pending.ofData pasting data).Awaits todo later →
      ∃ rest, todo = (absorb pasting data).1 ++ rest ∧
        (absorb pasting data).2.Awaits rest later := by
  induction pasting, data using marks_induction with
  | held data hdata =>
    rw [absorb_of_held hdata]
    rintro later _ ⟨@⟨keys, hkeys⟩ | @⟨keys, rest, body, hkeys, hend, hrest⟩, heq⟩
    · obtain ⟨todo, rfl, hlater⟩ := splitKeys_of_append_eq hkeys.each heq
      exact ⟨todo, rfl, .keys hkeys.of_append_right, hlater⟩
    · rw [flatten_append_pasteSequence] at heq
      obtain ⟨todo, rfl, hlater⟩ := splitKeys_of_no_start hkeys.each hdata heq
      refine ⟨todo ++ pasteSequence body :: rest, List.append_assoc _ _ _,
        .paste hkeys.of_append_right hend hrest, ?_⟩
      rw [flatten_append_pasteSequence]
      exact hlater
  | start before after hbefore ih =>
    rw [absorb_of_start hbefore]
    rintro later _ ⟨@⟨keys, hkeys⟩ | @⟨keys, rest, body, hkeys, hend, hrest⟩, heq⟩
    · exact absurd ⟨before, after ++ later, by simp [← heq]⟩ hkeys.noStart
    · rw [flatten_append_pasteSequence, List.append_assoc, List.append_assoc] at heq
      obtain ⟨rfl, hlater⟩ := append_pasteStart_inj hbefore hkeys.noStart heq
      obtain ⟨todo, htodo, hawaits⟩ := ih later (pasteSequence body :: rest)
        ⟨body, rest, rfl, hend, hrest, hlater⟩
      refine ⟨todo, ?_, hawaits⟩
      rw [hkeys.splitKeys_flatten, htodo, List.append_assoc]
  | opened body hbody =>
    rw [absorb_of_opened hbody]
    exact fun later todo h => ⟨todo, rfl, h⟩
  | closed body after hbody ih =>
    rw [absorb_of_closed hbody]
    rintro later _ ⟨body', rest, rfl, hend, hrest, heq⟩
    rw [List.append_assoc, List.append_assoc, List.append_assoc] at heq
    obtain ⟨rfl, hlater⟩ := append_pasteEnd_inj hbody hend heq
    obtain ⟨todo, rfl, hawaits⟩ := ih later rest ⟨hrest, hlater⟩
    exact ⟨todo, rfl, hawaits⟩

/-! ## All reads -/

theorem Pending.awaits_ofData (p : Pending) (data later : List UInt8)
    (todo : List (List UInt8)) :
    (ofData p.isPasting (p.data ++ data)).Awaits todo later ↔ p.Awaits todo (data ++ later) := by
  cases p <;> simp [ofData, isPasting, Pending.data, Awaits]

/-- When nothing comes later, and nothing pending can be passed on, then no item is left. -/
theorem Pending.Awaits.eq_nil {p : Pending} {todo : List (List UInt8)} (h : p.Awaits todo [])
    (hp : p.IsSettled) : todo = [] ∧ p = .held [] := by
  cases p with
  | held data =>
    obtain ⟨hsplit, hdata⟩ := hp
    obtain ⟨@⟨_, hkeys⟩ | @⟨keys, rest, body, hkeys, hend, hrest⟩, heq⟩ := h
    · rw [List.append_nil] at heq
      rw [heq, hkeys.splitKeys_flatten, Prod.mk.injEq] at hsplit
      obtain ⟨rfl, -⟩ := hsplit
      exact ⟨rfl, by rw [heq, List.flatten_nil]⟩
    · rw [List.append_nil, flatten_append_pasteSequence] at heq
      exact absurd ⟨keys.flatten, _, by rw [heq, List.append_assoc]⟩ hdata
  | pasting data =>
    obtain ⟨body, rest, rfl, -, -, heq⟩ := h
    rw [List.append_nil] at heq
    exact absurd ⟨body, rest.flatten, heq.symm⟩ hp

namespace Input

/-- **Reads give the first of the items that are awaited, and leave the others to come.** -/
theorem run_of_awaits (steps : List Step) (i : Input) (hs : i.isUndisturbed steps = true) :
    i.clocked = true → i.pending.IsSettled →
      ∀ todo later, i.pending.Awaits todo (received steps ++ later) →
        ∃ rest, todo = (i.run steps).1 ++ rest ∧ (i.run steps).2.pending.IsSettled ∧
          (i.run steps).2.pending.Awaits rest later := by
  revert steps i
  refine run_of_undisturbed ?_ ?_ ?_
  · exact fun i _ hi todo later h => ⟨todo, rfl, hi, h⟩
  · intro i data steps ih hclock hi todo later h
    rw [received_cons, List.append_assoc, Step.data, ← Pending.awaits_ofData] at h
    obtain ⟨hprocess, hclock⟩ := process_clocked hclock data
    obtain ⟨todo, rfl, hawaits⟩ := absorb_of_awaits _ _ _ _ h
    have hsettled := isSettled_absorb i.pending.isPasting (i.pending.data ++ data)
    rw [← hprocess] at hawaits hsettled ⊢
    obtain ⟨rest, rfl, hrest⟩ := ih hclock hsettled todo later hawaits
    exact ⟨rest, (List.append_assoc _ _ _).symm, hrest⟩
  · intro i ticks steps hw ih hclock hi todo later h
    rw [run, step, hw]
    exact ih hclock hi todo later h

/-- **Items that come to an idle stream come out as they are**, and the stream is idle again. -/
theorem run_of_isSegmented {items : List (List UInt8)} (hi : IsSegmented items) {i : Input}
    (hclock : i.clocked = true) (hidle : i.pending = .held []) {steps : List Step}
    (hs : i.isUndisturbed steps = true) (hcut : received steps = items.flatten) :
    (i.run steps).1 = items ∧ (i.run steps).2.pending = .held [] := by
  have hsettled : i.pending.IsSettled := by
    rw [hidle]
    exact ⟨by simp [splitKeys], by decide⟩
  have hawaits : i.pending.Awaits items (received steps ++ []) := by
    rw [hidle]
    exact ⟨hi, by rw [List.append_nil, hcut]; rfl⟩
  obtain ⟨rest, hout, hsettled, hrest⟩ :=
    run_of_awaits steps i hs hclock hsettled items [] hawaits
  obtain ⟨rfl, hpending⟩ := hrest.eq_nil hsettled
  rw [List.append_nil] at hout
  exact ⟨hout.symm, hpending⟩

/-- **A stream of items comes out as it is, wherever reads end.** -/
theorem run_items {items : List (List UInt8)} (hi : IsItemStream items) (timeout : Int)
    {steps : List Step} (hs : (fresh true timeout).isUndisturbed steps = true)
    (hcut : received steps = items.flatten) :
    ((fresh true timeout).run steps).1 = items ∧ ((fresh true timeout).run steps).2.held = [] ∧
      ((fresh true timeout).run steps).2.isPasting = false := by
  obtain ⟨hout, hpending⟩ := run_of_isSegmented hi.isSegmented rfl rfl hs hcut
  exact ⟨hout, by rw [held, hpending], by rw [isPasting, hpending]⟩

/-- Reads that end inside a character, an arrow key and both marks of a paste, with pauses between
them. -/
theorem run_items_of_cuts :
    ((fresh true 10).run [.read [0xc3], .wait 5, .read [0xa9, 0x1b, 0x5b], .read [],
      .read [0x41, 0x1b, 0x5b, 0x32], .wait 9, .read [0x30, 0x30, 0x7e, 0x68, 0x69, 0x1b, 0x5b],
      .read [0x32, 0x30, 0x31, 0x7e, 0x78]]).1 =
    [[0xc3, 0xa9], [0x1b, 0x5b, 0x41], pasteSequence [0x68, 0x69], [0x78]] := by
  refine (run_items ⟨?_, by decide +kernel⟩ 10 (by decide +kernel) (by decide)).1
  have hpaste : IsPaste (pasteSequence [0x68, 0x69]) := ⟨_, rfl, by decide⟩
  simp only [List.forall_mem_cons]
  exact ⟨.inl (by decide +kernel), .inl (by decide +kernel), .inr hpaste,
    .inl (by decide +kernel), by simp⟩

end Input

end ShellLine
