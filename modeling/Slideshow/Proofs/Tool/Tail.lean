import Mathlib.Data.List.DropRight
import Slideshow.Proofs.Tool.Ways

/-!
# What is kept of a followed run

A call that follows a program (`execute_with_stderr_callback`) hands on each line of its diagnostics
and keeps the last of them, so that a failure can be explained. What is kept is a queue: a line that
reports progress passes it by, any other one is put behind it, and the oldest one leaves a queue
that is full. However many lines there are, the queue is the end of what was said without the
progress.

* `Written`: lines are written one after another, each with a line feed or a carriage return and a
  line feed behind it; the last one may have none.
* `Command.Reports`: a line reports progress.
* `Command.lastDiagnostics` is the end of the lines that do not.

Headlines:
* **`Command.pushLine_lastDiagnostics`**, **`Command.tail_eq`**: one line more keeps the queue the
  end of what was said, and so do all.
* **`Command.follow_keeps_tail`**: a followed run hands on every line once, in order, and gives or
  reports the kept ones.
-/

namespace Slideshow

/-! ## Lines and their bytes -/

/-- Lines as they are written. -/
inductive Written : List String → List Char → Prop
  | none : Written [] []
  /-- The last line has no end. -/
  | unended {line : String} (hline : '\n' ∉ line.toList) (hne : line.toList ≠ []) :
    Written [line] line.toList
  /-- A carriage return in front of the line feed would belong to the end. -/
  | fed {line : String} {lines : List String} {text : List Char} (hline : '\n' ∉ line.toList)
      (hreturn : line.toList.getLast? ≠ some '\r') (hrest : Written lines text) :
      Written (line :: lines) (line.toList ++ '\n' :: text)
  | returned {line : String} {lines : List String} {text : List Char} (hline : '\n' ∉ line.toList)
      (hrest : Written lines text) : Written (line :: lines) (line.toList ++ '\r' :: '\n' :: text)

/-- Lines can be written with a line feed behind each. -/
theorem written_fed {lines : List String}
    (h : ∀ l ∈ lines, '\n' ∉ l.toList ∧ l.toList.getLast? ≠ some '\r') :
    Written lines (lines.flatMap fun l => l.toList ++ ['\n']) := by
  induction lines with
  | nil => exact .none
  | cons l ls ih =>
    obtain ⟨⟨hline, hreturn⟩, hrest⟩ := List.forall_mem_cons.mp h
    rw [List.flatMap_cons, List.append_assoc, List.singleton_append]
    exact .fed hline hreturn (ih hrest)

namespace Command

theorem not_mem_flatMap_encodeChar {cs : List Char} (h : '\n' ∉ cs) :
    10 ∉ cs.flatMap Text.encodeChar := by
  intro hmem
  obtain ⟨c, hc, hb⟩ := List.mem_flatMap.mp hmem
  have hvalue : c.toNat = '\n'.toNat := Text.toNat_of_mem_encodeChar hb (by decide)
  exact h (Char.toNat_inj.mp hvalue ▸ hc)

theorem getLast?_flatMap_encodeChar {cs : List Char} (h : cs.getLast? ≠ some '\r') :
    (cs.flatMap Text.encodeChar).getLast? ≠ some 13 := by
  rcases List.eq_nil_or_concat' cs with rfl | ⟨front, c, rfl⟩
  · exact nofun
  · obtain ⟨b, bs, hbytes, -⟩ := Text.nextChar_encodeChar c []
    rw [List.append_nil] at hbytes
    rw [List.flatMap_append, List.flatMap_singleton,
      List.getLast?_append_of_ne_nil _ (by rw [hbytes]; exact List.cons_ne_nil _ _)]
    intro hlast
    have hvalue : c.toNat = '\r'.toNat :=
      Text.toNat_of_mem_encodeChar (List.mem_of_getLast? hlast) (by decide)
    refine h ?_
    rw [List.getLast?_concat, Char.toNat_inj.mp hvalue]

/-- A line goes up to the line feed. -/
theorem byteLines_fed {line : List UInt8} (h : 10 ∉ line) (hreturn : line.getLast? ≠ some 13)
    (rest : List UInt8) :
    byteLines (line ++ 10 :: rest) = line :: byteLines rest := by
  induction line with
  | nil => rfl
  | cons b line ih =>
    have hb : b ≠ 10 := (List.ne_of_not_mem_cons h).symm
    have hline : 10 ∉ line := List.not_mem_of_not_mem_cons h
    have hlast : line.getLast? ≠ some 13 := by
      cases line with
      | nil => exact nofun
      | cons b' line => rwa [List.getLast?_cons_cons] at hreturn
    rw [List.cons_append, byteLines.eq_4 _ _ hb ?_, ih hline hlast]
    -- a carriage return is not the last byte of the line
    rintro r rfl hr
    cases line with
    | nil => exact hreturn rfl
    | cons b' line => exact hline (by rw [(List.cons.inj hr).1]; exact List.mem_cons_self)

theorem byteLines_unended {line : List UInt8} (h : 10 ∉ line) (hne : line ≠ []) :
    byteLines line = [line] := by
  induction line with
  | nil => exact absurd rfl hne
  | cons b line ih =>
    have hb : b ≠ 10 := (List.ne_of_not_mem_cons h).symm
    have hline : 10 ∉ line := List.not_mem_of_not_mem_cons h
    rw [byteLines.eq_4 _ _ hb ?_]
    · cases line with
      | nil => rfl
      | cons b' line => rw [ih hline (List.cons_ne_nil _ _)]
    · rintro r - hr
      exact hline (by rw [hr]; exact List.mem_cons_self)

/-- A line that is text is read and the others after it. -/
theorem readable_cons (line : String) (lines : List (List UInt8)) :
    readable (line.toList.flatMap Text.encodeChar :: lines) =
        (line :: (readable lines).1, (readable lines).2) := by
  rw [readable, Text.decode?_flatMap]
  dsimp only
  rw [String.ofList_toList]

/-- **Lines that are written are read as they are.** -/
theorem saidIn_written {lines : List String} {text : List Char} (h : Written lines text) :
    saidIn (text.flatMap Text.encodeChar) = (lines, true) := by
  have hfeed : Text.encodeChar '\n' = [10] := by decide
  have hreturn : Text.encodeChar '\r' = [13] := by decide
  induction h with
  | none => rfl
  | @unended line hline hne =>
    have hbytes : line.toList.flatMap Text.encodeChar ≠ [] := by
      obtain ⟨c, cs, hcs⟩ := List.exists_cons_of_ne_nil hne
      obtain ⟨b, bs, hb, -⟩ := Text.nextChar_encodeChar c (cs.flatMap Text.encodeChar)
      rw [hcs, List.flatMap_cons, hb]
      exact List.cons_ne_nil _ _
    rw [saidIn, byteLines_unended (not_mem_flatMap_encodeChar hline) hbytes, readable_cons]
    rfl
  | @fed line lines text hline hlast hrest ih =>
    rw [saidIn] at ih ⊢
    rw [List.flatMap_append, List.flatMap_cons, hfeed, List.singleton_append,
      byteLines_fed (not_mem_flatMap_encodeChar hline) (getLast?_flatMap_encodeChar hlast),
        readable_cons, ih]
  | @returned line lines text hline hrest ih =>
    rw [saidIn] at ih ⊢
    rw [List.flatMap_append, List.flatMap_cons, List.flatMap_cons, hreturn, hfeed,
      List.singleton_append, List.singleton_append,
      Following.byteLines_append (not_mem_flatMap_encodeChar hline), readable_cons, ih]

/-! ## The queue -/

/-- A line reports progress: what stands in front of its first equals sign is a key, which is not
empty and has no blank in it. -/
def Reports (line : String) : Prop :=
  ∃ key value, line.toList = key ++ '=' :: value ∧ '=' ∉ key ∧ key ≠ [] ∧
    ∀ c ∈ key, Text.isBlank c = false

theorem isProgress_iff (line : String) : isProgress line = true ↔ Reports line := by
  have hkey : ∀ {key : List Char} (value : List Char), '=' ∉ key →
      (key ++ '=' :: value).takeWhile (· != '=') = key :=
    fun value hnot => by
      rw [List.takeWhile_append_of_pos, List.takeWhile_cons_of_neg (by simp), List.append_nil]
      exact fun c hc => bne_iff_ne.mpr (ne_of_mem_of_not_mem hc hnot)
  simp only [isProgress, Bool.and_eq_true, decide_eq_true_eq, Bool.not_eq_true',
    List.isEmpty_eq_false_iff, List.any_eq_false, Bool.not_eq_true]
  constructor
  · rintro ⟨⟨hlength, hne⟩, hblank⟩
    have hsplit := List.takeWhile_append_dropWhile (p := (· != '=')) (l := line.toList)
    have hnot : '=' ∉ line.toList.takeWhile (· != '=') := fun h => by
      simpa using List.mem_takeWhile_imp h
    cases hrest : line.toList.dropWhile (· != '=') with
    | nil =>
      rw [hrest, List.append_nil] at hsplit
      rw [hsplit] at hlength
      exact absurd hlength (lt_irrefl _)
    | cons c value =>
      have hc : (c != '=') = false := by
        have hhead := List.head?_dropWhile_not (· != '=') line.toList
        rw [hrest] at hhead
        simpa using hhead
      obtain rfl : c = '=' := by simpa using hc
      exact ⟨_, value, by rw [← hrest, hsplit], hnot, hne, hblank⟩
  · rintro ⟨key, value, hline, hnot, hne, hblank⟩
    rw [hline, hkey value hnot]
    refine ⟨⟨?_, hne⟩, hblank⟩
    rw [List.length_append, List.length_cons]
    omega

instance : DecidablePred Reports := fun line => decidable_of_iff _ (isProgress_iff line)

/-- The lines that do not report progress. -/
def diagnostics (lines : List String) : List String := lines.filter fun l => ¬Reports l

/-- The last of them, as many as are kept. -/
def lastDiagnostics (lines : List String) : List String := (diagnostics lines).rtake tailLength

theorem length_lastDiagnostics (lines : List String) :
    (lastDiagnostics lines).length = min 20 (diagnostics lines).length := by
  rw [lastDiagnostics, List.rtake, List.length_drop, tailLength]
  omega

/-- A queue that is full loses its oldest line for a new one. -/
theorem rtake_concat_cases {α : Type} (xs : List α) (x : α) (n : Nat) :
    (xs ++ [x]).rtake (n + 1) =
      if (xs.rtake (n + 1)).length == n + 1 then (xs.rtake (n + 1)).drop 1 ++ [x]
          else xs.rtake (n + 1) ++ [x] := by
  rw [List.rtake_concat_succ]
  have hlength : (xs.rtake (n + 1)).length = xs.length - (xs.length - (n + 1)) := by
    rw [List.rtake, List.length_drop]
  split
  · next hfull =>
    rw [beq_iff_eq, hlength] at hfull
    rw [List.rtake, List.rtake, List.drop_drop, show xs.length - (n + 1) + 1 = xs.length - n by
      omega]
  · next hroom =>
    rw [beq_iff_eq, hlength] at hroom
    rw [List.rtake, List.rtake, show xs.length - n = 0 by omega, show xs.length - (n + 1) = 0 by
      omega]

/-- **One line more** keeps the queue the end of what was said. -/
theorem pushLine_lastDiagnostics (said : List String) (line : String) :
    pushLine (lastDiagnostics said) line = lastDiagnostics (said ++ [line]) := by
  rw [pushLine, lastDiagnostics, lastDiagnostics, diagnostics, diagnostics, List.filter_append]
  by_cases hreports : Reports line
  · rw [if_pos ((isProgress_iff line).mpr hreports), List.filter_singleton, decide_not,
      decide_eq_true hreports]
    simp
  · rw [if_neg (mt (isProgress_iff line).mp hreports), List.filter_singleton, decide_not,
      decide_eq_false hreports]
    exact (rtake_concat_cases _ line 19).symm

/-- **The queue is the end of what was said**, however much that is. -/
theorem tail_eq (lines : List String) : tail lines = lastDiagnostics lines := by
  induction lines using List.reverseRecOn with
  | nil => rfl
  | append_singleton lines line ih =>
    rw [tail, List.foldl_concat, ← tail, ih, pushLine_lastDiagnostics]

/-! ## A followed run -/

/-- **A followed run hands on every line once, in order**, and what is kept of them explains its
end. For any lines in UTF-8 and any end of the program, if neither the time limit nor the token
stops it: after a good end the kept lines are given, after a bad one they stand, without blanks at
the ends, behind the status in the error. The kept lines are the last twenty that report no
progress. -/
theorem follow_keeps_tail {c : Command} {watched : Bool} {m : Machine} {run : Run}
    {lines : List String} {text : List Char} (hlines : Written lines text)
    (herrors : run.errors = text.flatMap Text.encodeChar)
    (hrun : (Machine.run c.program c.arguments watched false (some c.timeout) m).1 =
      .ok (.finished run)) :
    (c.follow watched m).1.1 = lines ∧
      (run.ending = .exited 0 →
        (c.follow watched m).1.2 = .ok ⟨.exited 0, "", "\n".intercalate (lastDiagnostics lines)⟩) ∧
      (run.ending ≠ .exited 0 →
        (c.follow watched m).1.2 =
          .error (.tool c.name ("exited with status " ++ run.ending.message ++
        ": " ++ Text.trim ("\n".intercalate (lastDiagnostics lines))))) ∧
      lastDiagnostics lines <:+ diagnostics lines ∧
          (lastDiagnostics lines).length = min 20 (diagnostics lines).length := by
  have hsaid : saidIn run.errors = (lines, true) := herrors ▸ saidIn_written hlines
  have hhanded : (c.follow watched m).1.1 = (saidIn run.errors).1 := by
    show handedOn (Machine.run c.program c.arguments watched false (some c.timeout) m).1 = _
    rw [hrun]
    rfl
  have hresult : (c.follow watched m).1.2 =
      c.checked ⟨run.ending, "", "\n".intercalate (lastDiagnostics lines)⟩ := by
    show c.followed (Machine.run c.program c.arguments watched false (some c.timeout) m).1 = _
    rw [hrun, Following.followed_finished, hsaid, if_pos rfl, tail_eq]
  refine ⟨by rw [hhanded,
    hsaid], fun hgood => ?_, fun hbad => ?_, List.drop_suffix _ _, length_lastDiagnostics lines⟩
  · rw [hresult, checked, if_pos (isSuccess_iff.mpr hgood), hgood]
  · rw [hresult, checked, if_neg (mt isSuccess_iff.mp hbad)]
    rfl

/-- Twenty-two lines that explain something, with progress in between. -/
def chatty : List String :=
  ["first", "out_time=00:00:01.00"] ++
    (List.replicate 19 "again" ++ ["=a=b", "speed=1.0x", "last line: x=1"])

/-- The two oldest are lost; a line that begins with an equals sign, and one with a blank in front
of it, report nothing. -/
theorem follow_keeps_tail_chatty : Written chatty (chatty.flatMap fun l => l.toList ++ ['\n']) ∧
    (tool.follow false
      (saying ((chatty.flatMap fun l => l.toList ++ ['\n']).flatMap Text.encodeChar))).1.1 =
        chatty ∧
    (tool.follow false
      (saying ((chatty.flatMap fun l => l.toList ++ ['\n']).flatMap Text.encodeChar))).1.2 =
      .ok ⟨.exited 0, "",
          "\n".intercalate (List.replicate 18 "again" ++ ["=a=b", "last line: x=1"])⟩ := by
  have hwritten : Written chatty (chatty.flatMap fun l => l.toList ++ ['\n']) :=
    written_fed (by decide +kernel)
  have hrun :=
    (saying_undisturbed ((chatty.flatMap fun l => l.toList ++ ['\n']).flatMap Text.encodeChar)).run
      false
  rw [saying_begun] at hrun
  have hkept : lastDiagnostics chatty = List.replicate 18 "again" ++
    ["=a=b", "last line: x=1"] := rfl
  obtain ⟨hlines, hgood, -⟩ := follow_keeps_tail hwritten rfl hrun
  exact ⟨hwritten, hlines, hkept ▸ hgood rfl⟩

end Command

end Slideshow
