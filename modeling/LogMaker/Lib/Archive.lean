import LogMaker.Lib.Recent
import Mathlib.Data.List.Chain
/-!
# Archive — texts packed into files of a size, the last files kept

An archive is the file that is being written and the last files that were, at most `n` of them.  A text goes to the end
of the file if that does not take it over the size or the file is empty, else the file is closed and the text begins the
next.  After any texts the closed files are the last of those that packing them makes (`items_logs`), and with the file
that is being written they hold the texts in order and whole (`flatten_pack`).  Two files in a row are together over the
size, so where files have been lost the ones that are kept still hold so much (`held_logs`).
-/

structure Archive (α : Type) (n : Nat) where
  closed : Recent (List α) n
  current : List α

namespace Archive

variable {α : Type} {n : Nat}

/-- The file is closed before this text. -/
def Full (maxSize : Nat) (current text : List α) : Prop := maxSize < current.length + text.length ∧ current ≠ []

instance (maxSize : Nat) (current text : List α) : Decidable (Full maxSize current text) :=
  inferInstanceAs (Decidable (maxSize < current.length + text.length ∧ ¬current = []))

def close (a : Archive α n) : Archive α n := ⟨a.closed.push a.current, []⟩

def log (maxSize : Nat) (a : Archive α n) (text : List α) : Archive α n :=
  if Full maxSize a.current text then { a.close with current := text } else { a with current := a.current ++ text }

def logs (maxSize : Nat) (a : Archive α n) (texts : List (List α)) : Archive α n := texts.foldl (log maxSize) a

/-- The files that are closed on the way, and the one that is being written at the end. -/
def pack (maxSize : Nat) : List α → List (List α) → List (List α) × List α
  | current, [] => ([], current)
  | current, text :: texts =>
    if Full maxSize current text then
      let r := pack maxSize text texts
      (current :: r.1, r.2)
    else pack maxSize (current ++ text) texts

theorem flatten_pack (maxSize : Nat) (texts : List (List α)) : ∀ current : List α,
    (pack maxSize current texts).1.flatten ++ (pack maxSize current texts).2 = current ++ texts.flatten := by
  induction texts with
  | nil => exact fun current => (List.append_nil current).symm
  | cons text texts ih =>
    intro current
    unfold pack
    split
    · rw [List.flatten_cons, List.append_assoc, ih, List.flatten_cons]
    · rw [ih, List.flatten_cons, List.append_assoc]

theorem logs_eq (maxSize : Nat) (texts : List (List α)) : ∀ a : Archive α n,
    a.logs maxSize texts =
      ⟨(pack maxSize a.current texts).1.foldl Recent.push a.closed, (pack maxSize a.current texts).2⟩ := by
  induction texts with
  | nil => exact fun _ => rfl
  | cons text texts ih =>
    intro a
    show (a.log maxSize text).logs maxSize texts = _
    rw [ih, pack]
    unfold log
    split <;> rfl

/-- **The last files are kept.** -/
theorem items_logs (maxSize : Nat) (texts : List (List α)) (a : Archive α n) :
    (a.logs maxSize texts).closed.items = (a.closed.items ++ (pack maxSize a.current texts).1).rtake n := by
  rw [logs_eq]
  exact Recent.items_pushes _ a.closed

theorem current_logs (maxSize : Nat) (texts : List (List α)) (a : Archive α n) :
    (a.logs maxSize texts).current = (pack maxSize a.current texts).2 :=
  congrArg current (logs_eq ..)

theorem length_log_le (maxSize : Nat) (a : Archive α n) (text : List α) :
    (a.log maxSize text).current.length ≤ a.current.length + text.length := by
  unfold log
  split
  · exact Nat.le_add_left ..
  · rw [List.length_append]

/-! ## How much is kept -/

/-- Two files in a row are together over the size. -/
def Tight (maxSize : Nat) (files : List (List α)) : Prop := files.IsChain (fun f g => maxSize < f.length + g.length)

/-- A file is closed for a text that begins the next one. -/
theorem exists_pack (maxSize : Nat) (texts : List (List α)) : ∀ current : List α, ∃ more rest,
    (pack maxSize current texts).1 ++ [(pack maxSize current texts).2] = (current ++ more) :: rest ∧
    Tight maxSize ((current ++ more) :: rest) := by
  induction texts with
  | nil => exact fun current => ⟨[], [], congrArg (· :: []) (List.append_nil current).symm, .singleton _⟩
  | cons text texts ih =>
    intro current
    unfold pack
    split
    · rename_i hfull
      obtain ⟨more, rest, hpack, htight⟩ := ih text
      refine ⟨[], (text ++ more) :: rest, ?_, ?_⟩
      · rw [List.cons_append, hpack, List.append_nil]
      · rw [List.append_nil]
        refine List.isChain_cons_cons.2 ⟨?_, htight⟩
        have hover := hfull.1
        rw [List.length_append]
        omega
    · obtain ⟨more, rest, hpack, htight⟩ := ih (current ++ text)
      rw [List.append_assoc] at hpack htight
      exact ⟨text ++ more, rest, hpack, htight⟩

theorem pack_tight (maxSize : Nat) (current : List α) (texts : List (List α)) :
    Tight maxSize ((pack maxSize current texts).1 ++ [(pack maxSize current texts).2]) := by
  obtain ⟨more, rest, hpack, htight⟩ := exists_pack maxSize texts current
  rw [hpack]
  exact htight

theorem Tight.length_le {maxSize : Nat} : ∀ {files : List (List α)}, Tight maxSize files →
    files.length / 2 * (maxSize + 1) ≤ files.flatten.length
  | [], _ => by simp
  | [f], _ => by simp
  | f :: g :: files, h => by
    obtain ⟨hover, hrest⟩ := List.isChain_cons_cons.1 h
    have hle := Tight.length_le (hrest.drop 1)
    have hhalf : (f :: g :: files).length / 2 = files.length / 2 + 1 := Nat.add_div_right files.length (Nat.succ_pos 1)
    rw [List.drop_one, List.tail_cons] at hle
    rw [hhalf, Nat.add_mul, Nat.one_mul, List.flatten_cons, List.flatten_cons, List.length_append, List.length_append]
    omega

/-- All that an archive holds. -/
def held (a : Archive α n) : List α := a.closed.items.flatten ++ a.current

/-- Files that are lost are the first ones. -/
theorem drop_flatten_suffix (files : List (List α)) (d : Nat) : (files.drop d).flatten <:+ files.flatten :=
  ⟨(files.take d).flatten, by rw [← List.flatten_append, List.take_append_drop]⟩

theorem held_close_suffix (a : Archive α n) : a.close.held <:+ a.held := by
  have hall : (a.closed.items ++ [a.current]).flatten = a.held := by
    rw [List.flatten_append, List.flatten_singleton]
    rfl
  rw [← hall, held, close, List.append_nil]
  exact drop_flatten_suffix ..

theorem held_close {a : Archive α n} (h : a.closed.items.length < n) : a.close.held = a.held := by
  have hall : (a.closed.push a.current).items = a.closed.items ++ [a.current] :=
    Recent.rtake_of_length_le (by rw [List.length_append]; exact h)
  rw [held, close, hall, List.append_nil, List.flatten_append, List.flatten_singleton]
  rfl

/-- **What is held is the end of what was written, and is all of it or much**: over an archive with one closed file at
most nothing is lost before the files that are kept are so long. -/
theorem held_logs (maxSize : Nat) (a : Archive α n) (texts : List (List α)) (hone : a.closed.items.length ≤ 1) :
    (a.logs maxSize texts).held <:+ a.held ++ texts.flatten ∧
    ((a.logs maxSize texts).held = a.held ++ texts.flatten ∨
      (n + 1) / 2 * (maxSize + 1) ≤ (a.logs maxSize texts).held.length) := by
  generalize hfiles : pack maxSize a.current texts = files
  have hwritten : a.held ++ texts.flatten = (a.closed.items ++ files.1).flatten ++ files.2 := by
    rw [held, List.append_assoc, ← flatten_pack maxSize, hfiles, List.flatten_append, List.append_assoc]
  have hheld : (a.logs maxSize texts).held =
      ((a.closed.items ++ files.1).drop ((a.closed.items ++ files.1).length - n)).flatten ++ files.2 := by
    rw [held, items_logs, current_logs, hfiles, List.rtake]
  generalize hd : (a.closed.items ++ files.1).length - n = d at hheld
  rw [hheld, hwritten]
  refine ⟨?_, ?_⟩
  · obtain ⟨lost, hlost⟩ := drop_flatten_suffix (a.closed.items ++ files.1) d
    exact ⟨lost, by rw [← hlost, List.append_assoc]⟩
  · rcases Nat.eq_zero_or_pos d with rfl | hpos
    · exact .inl rfl
    · right
      rw [List.length_append] at hd
      -- what is lost takes the file that was closed with it, so the files that are kept are all of this packing
      have hdrop : (a.closed.items ++ files.1).drop d = files.1.drop (d - a.closed.items.length) := by
        rw [List.drop_append, List.drop_of_length_le (hone.trans hpos), List.nil_append]
      have hlen : (files.1.drop (d - a.closed.items.length) ++ [files.2]).length = n + 1 := by
        rw [List.length_append, List.length_drop, List.length_singleton]
        omega
      have htight : Tight maxSize (files.1.drop (d - a.closed.items.length) ++ [files.2]) := by
        rw [← List.drop_append_of_le_length (by omega), ← hfiles]
        exact (pack_tight maxSize a.current texts).drop _
      have hle := htight.length_le
      rwa [hlen, List.flatten_append, List.flatten_singleton, ← hdrop] at hle

end Archive
