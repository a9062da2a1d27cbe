import LogMaker.Spdlog.FileSession
import LogMaker.Spdlog.Records
/-!
# LogFiles — the dialog's messages in the local files

The rotating file sink as one of the logger's (`Sink.Files`).  While it is handed what passes of the dialog's messages
it throws nothing but `std::exception`s, or it gives `fwrite` a null stream and nothing is known from there on: so either
every sink is handed every message that passes, or the run has ended there; and the files keep these messages as those
of every session (`toSpdLog_files`).  Where no call of the system fails, the files after a run of the dialog are the last
of those that packing the lines makes which have entered the file sink, each thread's in order (`reached_files`).
-/
namespace LogMaker
namespace Spdlog

open RotatingFileSink (calcFilename logged)
open Lts (entriesOf)

/-- This sink of the logger, not called yet, is the rotating file sink in this state: as long as no null stream is given
to `fwrite`, the last of its calls throws what the file sink's throws. -/
structure Sink.Files (x : Sink) (os : Os) (k : RotatingFileSink) (format : LogMsg → CString) (s : Rotating) : Prop where
  calls : x.calls = []
  throws : ∀ cs, Ends (RotatingFileSink.run os k format cs) s
    (fun thrown _ => x.throws cs = thrown.getLast?.join.map .std) (fun _ _ => True)

section
variable {os : Os} {k : RotatingFileSink} {format : LogMsg → CString} {s : Rotating}

theorem run_append (cs ds : List SinkCall) : RotatingFileSink.run os k format (cs ++ ds) = (do
    let first ← RotatingFileSink.run os k format cs
    let rest ← RotatingFileSink.run os k format ds
    pure (first ++ rest)) := by
  induction cs with
  | nil => simp [RotatingFileSink.run]
  | cons c cs ih => simp [RotatingFileSink.run, ih]

/-- A run that returns has returned before its last calls. -/
theorem run_returned {cs ds : List SinkCall} {thrown : List (Option CString)} {s' : Rotating} (hds : ds <+: cs)
    (h : RotatingFileSink.run os k format cs s = .ok thrown s') :
    ∃ first s₁, RotatingFileSink.run os k format ds s = .ok first s₁ := by
  obtain ⟨es, rfl⟩ := hds
  rw [run_append] at h
  obtain ⟨first, s₁, hfirst, -⟩ := returned_of_bind h
  exact ⟨first, s₁, hfirst⟩

/-- Only a null stream given to `fwrite` ends a run. -/
theorem run_ended (cs : List SinkCall) :
    Ends (RotatingFileSink.run os k format cs) s (fun _ _ => True) (fun e _ => e = .undefined) := by
  refine (run_ends (I := fun _ _ => True) (U := fun _ => True) (R := fun _ _ => True) ?_ cs s trivial).mono
    (fun _ _ _ => trivial) (fun _ _ => And.left)
  intro c rest s₁ _
  refine (ends_run _ s₁).mono (fun _ _ _ => ⟨trivial, trivial⟩) ?_
  rintro (what | _) s₂ -
  · exact ⟨trivial, trivial⟩
  · trivial

/-- A file sink whose run returns throws nothing but `std::exception`s in it. -/
theorem Sink.Files.calm {x : Sink} {cs ds : List SinkCall} {thrown : List (Option CString)} {s' : Rotating}
    (hx : x.Files os k format s) (h : RotatingFileSink.run os k format cs s = .ok thrown s') (hds : ds <+: cs) :
    x.throws ds ≠ some .unknown := by
  obtain ⟨first, s₁, hfirst⟩ := run_returned hds h
  rw [(hx.throws ds).returned hfirst]
  cases first.getLast?.join <;> nofun

end

theorem flatMap_logged_map_log (format : LogMsg → CString) (msgs : List LogMsg) :
    (msgs.map SinkCall.log).flatMap (logged format) = msgs.map format := by
  rw [List.flatMap_map]
  exact List.map_eq_flatMap.symm

/-- **Whatever the disk does, the files keep the messages of the dialog that pass**, some of them, in order, each whole or
cut and in one file: either no null stream is given to `fwrite`, and of any `toSpdLog` calls every sink is handed each
one that passes the logger's level and its own; or one is, after some of these. -/
theorem toSpdLog_files (os : Os) (k : RotatingFileSink) (format : LogMsg → CString) (s : Rotating) (h : s.On k)
    (l : Logger) (before after : List Sink) (x : Sink) (hl : l.sinks = before ++ x :: after)
    (hx : x.Files os k format s) (hcalm : ∀ y ∈ before ++ after, y.Calm) (hfl : l.flushLevel = .off)
    (ct2ca : CString → CString) (xs : List (CString × CString)) :
    let rs := xs.map (fun x => toSpdLog x.1 x.2)
    let handed := fun y : Sink => (pass l.level y.level rs).map (msgOf ct2ca l.name)
    Ends (RotatingFileSink.run os k format ((handed x).map .log)) s
      (fun _ s' => (l.run (rs.map (opOf ct2ca))).sinks = l.sinks.map (fun y => y.logged (handed y)) ∧
        Keeps k ((handed x).map format) s.fileHelper.file s'.fileHelper.file)
      (fun e s' => e = .undefined ∧ Keeps k ((handed x).map format) s.fileHelper.file s'.fileHelper.file) := by
  intro rs handed
  have hkept := run_kept os k format ((handed x).map .log) s h
  rw [flatMap_logged_map_log] at hkept
  refine ((ends_run _ s).and (hkept.and (run_ended _))).mono ?_ (fun _ _ h => ⟨h.2.2, h.2.1⟩)
  rintro thrown s' ⟨hrun, hkeeps, -⟩
  refine ⟨sinks_records ct2ca hfl rs (fun y hy ds hds => ?_), hkeeps⟩
  rw [hl] at hy
  rcases List.mem_append.1 hy with hy | hy
  · exact hcalm y (List.mem_append_left _ hy) _
  · rcases List.mem_cons.1 hy with rfl | hy
    · show y.throws (y.calls ++ ds.filter (SinkCall.wanted y.level)) ≠ _
      rw [hx.calls, List.nil_append]
      refine hx.calm hrun ?_
      have hwanted := hds.filter (SinkCall.wanted y.level)
      rwa [wanted_records ct2ca l.view y.level hfl rs] at hwanted
    · exact hcalm y (List.mem_append_right _ hy) _

/-- A sink of two files that has opened its file. -/
def newFile : Rotating := ⟨0, ⟨fun f => if f = ['f'] then some [] else none, 0, some ⟨['f'], []⟩, ['f']⟩⟩

theorem on_newFile : newFile.On twoFiles where
  filename := rfl
  stream := by
    rintro _ ⟨⟩
    exact ⟨rfl, [], rfl⟩

/-- This file sink, throwing what is no `std::exception` once it has given `fwrite` a null stream. -/
def fileSink (os : Os) (k : RotatingFileSink) (format : LogMsg → CString) (s : Rotating) : Sink where
  level := .trace
  calls := []
  throws := fun cs => match RotatingFileSink.run os k format cs s with
    | .ok thrown _ => thrown.getLast?.join.map .std
    | .error _ _ => some .unknown

theorem files_fileSink (os : Os) (k : RotatingFileSink) (format : LogMsg → CString) (s : Rotating) :
    (fileSink os k format s).Files os k format s where
  calls := rfl
  throws := fun cs => (ends_run _ s).mono (fun _ _ hrun => by simp only [fileSink, hrun]) (fun _ _ _ => trivial)

/-- A logger at `trace` with this sink, and one behind it. -/
def filing (os : Os) : Logger :=
  { Logger.ofSinks ['c'] [fileSink os twoFiles LogMsg.payload newFile, ⟨.warn, [], fun _ => none⟩] with level := .trace }

theorem toSpdLog_files_noRename :
    let rs := [("Info".toList, ['갭', 'b']), ("Warning".toList, ['c', 'd'])].map (fun x => toSpdLog x.1 x.2)
    let handed := fun y : Sink => (pass .trace y.level rs).map (msgOf asciiPage ['c'])
    (filing noRename).sinks.map (fun y => (handed y).map LogMsg.payload) =
      [[['?', 'b'], ['c', 'd']], [['c', 'd']]] ∧
    Ends (RotatingFileSink.run noRename twoFiles LogMsg.payload
        ((handed (fileSink noRename twoFiles LogMsg.payload newFile)).map .log)) newFile
      (fun _ s' => ((filing noRename).run (rs.map (opOf asciiPage))).sinks =
          (filing noRename).sinks.map (fun y => y.logged (handed y)) ∧
        Keeps twoFiles ((handed (fileSink noRename twoFiles LogMsg.payload newFile)).map LogMsg.payload)
          newFile.fileHelper.file s'.fileHelper.file)
      (fun e s' => e = .undefined ∧
        Keeps twoFiles ((handed (fileSink noRename twoFiles LogMsg.payload newFile)).map LogMsg.payload)
          newFile.fileHelper.file s'.fileHelper.file) :=
  ⟨by decide, toSpdLog_files noRename twoFiles LogMsg.payload newFile on_newFile (filing noRename) []
    [⟨.warn, [], fun _ => none⟩] (fileSink noRename twoFiles LogMsg.payload newFile) rfl (files_fileSink ..)
    (fun y hy cs => by rw [List.mem_singleton.1 hy]; nofun) rfl asciiPage
    [("Info".toList, ['갭', 'b']), ("Warning".toList, ['c', 'd'])]⟩

/-- **The local files after a run of the dialog**: where no call of the system fails they are the last of those that
packing the lines makes which have entered the file sink, after the ones there were, and nothing is thrown; the lines of
each thread are those it has made, in order, but for the one it has still to bring there. -/
theorem reached_files (os : Os) (k : RotatingFileSink) (format : LogMsg → CString) (ct2ca : CString → CString)
    (name : CString) (s : Rotating) (a : Archive Char k.maxFiles) (hos : ∀ c, ¬os.Fails c)
    (hbase : k.baseFilename ≠ []) (hs : s.Shows k a)
    {E : Env} {m : Members} {b : Boxes} {Q : State × Passed → Act → Prop} {p : State × Passed}
    (h : ReachedWith E Passed.see .none Q m b p) (hnd : E.sinks.Nodup) (hfile : .file ∈ E.sinks) :
    let msgs := (p.2.passed (.enter .file)).map (fun x => msgOf ct2ca name (toSpdLog x.2.1 x.2.2))
    a.current.length + ((msgs.map format).map List.length).sum < 2 ^ 64 →
    let files := Archive.pack k.maxSize a.current (msgs.map format)
    Ends (RotatingFileSink.run os k format (msgs.map .log)) s
      (fun thrown s' => thrown = msgs.map (fun _ => none) ∧ ∃ a' : Archive Char k.maxFiles, s'.Shows k a' ∧
        a'.closed.items = (a.closed.items ++ files.1).rtake k.maxFiles ∧ a'.current = files.2)
      (fun _ _ => False) ∧
    files.1.flatten ++ files.2 = a.current ++ (msgs.map format).flatten ∧
    ∀ t, entriesOf t (p.2.passed (.enter .file)) ++ ahead (.enter .file) (pos p.1 t) = entriesOf t p.2.made := by
  intro msgs hlt files
  have hrun := run_shows os k format (msgs.map .log) s a hos hbase hs (by rwa [flatMap_logged_map_log])
  rw [flatMap_logged_map_log] at hrun
  refine ⟨hrun.mono ?_ (fun _ _ => id), Archive.flatten_pack .., fun t => entered_append_ahead h hnd t hfile⟩
  rintro thrown s' ⟨hthrown, hs'⟩
  exact ⟨hthrown.trans (List.map_map ..), _, hs', Archive.items_logs .., Archive.current_logs ..⟩

theorem shows_newFile : newFile.Shows twoFiles ⟨Recent.empty, []⟩ where
  on := on_newFile
  opened := rfl
  size := rfl
  files := by
    refine ⟨rfl, fun i hi => ?_⟩
    obtain rfl : i = 0 := Nat.lt_one_iff.1 hi
    rfl

/-- `sendThread` in the file sink, with its first line. -/
theorem reached_files_one : ∃ p : State × Passed,
    ReachedWith spdEnv Passed.see .none Lts.anyStep (initMsgs 41) (initMsgs 41).shown p ∧
    let msgs := (p.2.passed (.enter .file)).map (fun x => msgOf asciiPage ['c'] (toSpdLog x.2.1 x.2.2))
    msgs.length = 1 ∧
    let files := Archive.pack 3 [] (msgs.map LogMsg.payload)
    Ends (RotatingFileSink.run steady twoFiles LogMsg.payload (msgs.map .log)) newFile
      (fun thrown s' => thrown = msgs.map (fun _ => none) ∧ ∃ a' : Archive Char 1, s'.Shows twoFiles a' ∧
        a'.closed.items = ([] ++ files.1).rtake 1 ∧ a'.current = files.2)
      (fun _ _ => False) := by
  obtain ⟨p, hp, hlen, hlt⟩ := exists_reachedWith Passed.see .none
    (fun p =>
      let msgs := (p.2.passed (.enter .file)).map (fun x => msgOf asciiPage ['c'] (toSpdLog x.2.1 x.2.2))
      msgs.length = 1 ∧ ([] : CString).length + ((msgs.map LogMsg.payload).map List.length).sum < 2 ^ 64)
    (checkClick ++ toRead .sendThread ++ List.replicate 8 (.work .sendThread)) (by decide +kernel)
  exact ⟨p, hp, hlen, (reached_files steady twoFiles LogMsg.payload asciiPage ['c'] newFile ⟨Recent.empty, []⟩
    steady_fails (List.cons_ne_nil _ _) shows_newFile hp (by decide) (by decide) hlt).1⟩

end Spdlog
end LogMaker
