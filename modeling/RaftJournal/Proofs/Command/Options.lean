import RaftJournal.Command.Generate
import RaftJournal.Command.Replay

/-! # What arguments say

No option is read that no argument names (**`Arguments.named_of_mem_read`**). So a program tells its help
only if one of its arguments asks for it (**`Replay.exists_named_of_help`** and
**`Generate.exists_named_of_help`**), and a request has in it what the options say, and nothing else
(**`Replay.made_iff`**). -/

namespace RaftJournal

/-- An argument names an option: by its long name, or by its letter. -/
def OptionSpec.NamedIn (spec : OptionSpec) (text : String) : Prop :=
  (∃ long, text.toList = '-' :: '-' :: long ∧ (Arguments.splitLong long).1 = spec.long) ∨
    ∃ letters, text.toList = '-' :: letters ∧ ∃ c ∈ letters, spec.short = some c

namespace Arguments

variable {specs : List OptionSpec} {spec : OptionSpec} {long : String}

/-! ## one argument -/

/-- The options that an argument gives, and the last one without its value, are among some options. -/
def Said.From (among : OptionSpec → Prop) : Said → Prop
  | .complete given | .asking given => ∀ option ∈ given, ∃ spec, among spec ∧ spec.long = option.1
  | .wanting given last =>
    (∀ option ∈ given, ∃ spec, among spec ∧ spec.long = option.1) ∧ among last
  | .misfit => True

namespace Said.From

variable {among among' : OptionSpec → Prop} {said : Said}

/-- Options that are among some are among any that hold these. -/
theorem mono (h : said.From among) (le : ∀ spec, among spec → among' spec) : said.From among' := by
  have options {given : Arguments} (h : ∀ option ∈ given, ∃ spec, among spec ∧ spec.long = option.1) :
      ∀ option ∈ given, ∃ spec, among' spec ∧ spec.long = option.1 := by
    intro option mem
    obtain ⟨spec, inside, named⟩ := h option mem
    exact ⟨spec, le spec inside, named⟩
  cases said with
  | complete given => exact options h
  | wanting given last => exact ⟨options h.1, le last h.2⟩
  | asking given => exact options h
  | misfit => trivial

/-- An option may be put in front if it is among them itself. -/
theorem push (h : said.From among) (inside : among spec) (value : String) :
    (said.push (spec.long, value)).From among := by
  have options {given : Arguments} (h : ∀ option ∈ given, ∃ spec, among spec ∧ spec.long = option.1) :
      ∀ option ∈ (spec.long, value) :: given, ∃ spec, among spec ∧ spec.long = option.1 :=
    List.forall_mem_cons.mpr ⟨⟨spec, inside, rfl⟩, h⟩
  cases said with
  | complete given => exact options h
  | wanting given last => exact ⟨options h.1, h.2⟩
  | asking given => exact options h
  | misfit => trivial

/-- An argument may give one option if it is among them. -/
theorem complete_singleton (inside : among spec) (value : String) :
    (Said.complete [(spec.long, value)]).From among :=
  List.forall_mem_singleton.mpr ⟨spec, inside, rfl⟩

end Said.From

/-- The letters of an argument are those of the options that it gives. -/
theorem readLetters_from (specs : List OptionSpec) (letters : List Char) :
    (readLetters specs letters).From fun spec => spec ∈ specs ∧ ∃ c ∈ letters, spec.short = some c := by
  induction letters with
  | nil => exact fun _ mem => absurd mem List.not_mem_nil
  | cons c more ih =>
    rw [readLetters.eq_def]
    simp only
    split
    next => trivial
    next spec found =>
      have short := List.find?_some found
      have lettered : spec ∈ specs ∧ ∃ d ∈ c :: more, spec.short = some d :=
        ⟨List.mem_of_find?_eq_some found, c, List.mem_cons_self, of_decide_eq_true short⟩
      split
      · split
        · exact ⟨fun _ mem => absurd mem List.not_mem_nil, lettered⟩
        · exact .complete_singleton lettered _
        · exact .complete_singleton lettered _
      · split
        · exact Said.From.complete_singleton lettered ""
        · refine (ih.mono ?_).push lettered ""
          rintro other ⟨known, d, mem, short⟩
          exact ⟨known, d, List.mem_cons_of_mem c mem, short⟩

/-- A long option is the one that it names. -/
theorem readLong_from (specs : List OptionSpec) (text : List Char) :
    (readLong specs text).From fun spec => spec ∈ specs ∧ (splitLong text).1 = spec.long := by
  rw [readLong]
  split
  next => trivial
  next spec found =>
    have same := List.find?_some found
    have named : spec ∈ specs ∧ (splitLong text).1 = spec.long :=
      ⟨List.mem_of_find?_eq_some found, (of_decide_eq_true same).symm⟩
    split
    · exact .complete_singleton named _
    · exact ⟨fun _ mem => absurd mem List.not_mem_nil, named⟩
    · trivial
    · split
      · exact Said.From.complete_singleton named ""
      · exact .complete_singleton named ""

/-- An argument names the options that it gives. -/
theorem readOne_from (specs : List OptionSpec) (text : String) :
    (readOne specs text).From fun spec => spec ∈ specs ∧ spec.NamedIn text := by
  rw [readOne]
  split
  next long same =>
    exact (readLong_from specs long).mono fun spec h => ⟨h.1, .inl ⟨long, same, h.2⟩⟩
  next c letters _ same =>
    exact (readLetters_from specs (c :: letters)).mono fun spec h =>
      ⟨h.1, .inr ⟨c :: letters, same, h.2⟩⟩
  next => trivial

/-! ## all arguments -/

/-- An option of this name has its value next, or one of the arguments names it. -/
def Mentioned (specs : List OptionSpec) (wanted : Option OptionSpec) (texts : List String)
    (long : String) : Prop :=
  (∃ spec, wanted = some spec ∧ spec.long = long) ∨
    ∃ spec ∈ specs, spec.long = long ∧ ∃ text ∈ texts, spec.NamedIn text

/-- **Every option that is read is named** by an argument, unless it was wanted from the start. -/
theorem named_of_mem_read {wanted : Option OptionSpec} {texts : List String} {given : Arguments}
    (found : read specs wanted texts = some given) :
    ∀ option ∈ given, Mentioned specs wanted texts option.1 := by
  induction texts generalizing wanted given with
  | nil =>
    rw [read] at found
    split at found
    · cases found
      exact fun _ mem => absurd mem List.not_mem_nil
    · cases found
  | cons text rest ih =>
    -- what is named later is named, also where this argument names what comes next
    have later {next : Option OptionSpec} {given : Arguments} (found : read specs next rest = some given)
        (asks : ∀ spec, next = some spec → spec ∈ specs ∧ spec.NamedIn text) :
        ∀ option ∈ given, Mentioned specs wanted (text :: rest) option.1 := by
      intro option mem
      rcases ih found option mem with ⟨spec, same, named⟩ | ⟨spec, known, named, other, inside, calls⟩
      · exact .inr ⟨spec, (asks spec same).1, named, text, List.mem_cons_self, (asks spec same).2⟩
      · exact .inr ⟨spec, known, named, other, List.mem_cons_of_mem text inside, calls⟩
    have here {given : Arguments} (h : ∀ option ∈ given, ∃ spec, (spec ∈ specs ∧ spec.NamedIn text) ∧
        spec.long = option.1) : ∀ option ∈ given, Mentioned specs wanted (text :: rest) option.1 := by
      intro option mem
      obtain ⟨spec, ⟨known, calls⟩, named⟩ := h option mem
      exact .inr ⟨spec, known, named, text, List.mem_cons_self, calls⟩
    rw [read.eq_def] at found
    simp only at found
    split at found
    next spec =>
      split at found
      · obtain ⟨more, read, rfl⟩ := Option.map_eq_some_iff.mp found
        exact List.forall_mem_cons.mpr ⟨.inl ⟨spec, rfl, rfl⟩, later read (by rintro _ ⟨⟩)⟩
      · cases found
    next =>
      have origin := readOne_from specs text
      split at found
      · split at found
        · cases found
          exact fun _ mem => absurd mem List.not_mem_nil
        · cases found
      · split at found
        next first said =>
          rw [said] at origin
          obtain ⟨more, read, rfl⟩ := Option.map_eq_some_iff.mp found
          exact List.forall_mem_append.mpr ⟨here origin, later read (by rintro _ ⟨⟩)⟩
        next first last said =>
          rw [said] at origin
          obtain ⟨more, read, rfl⟩ := Option.map_eq_some_iff.mp found
          refine List.forall_mem_append.mpr ⟨here origin.1, later read ?_⟩
          rintro _ ⟨⟩
          exact origin.2
        next first said =>
          rw [said] at origin
          cases found
          exact here origin
        next => cases found

/-- An option that is given, and has no usual value, is named by an argument. -/
theorem exists_named_of_has {texts : List String} {given : Arguments}
    (parsed : parse specs texts = some given) (has : given.has spec.long)
    (only : ∀ other ∈ specs, other.long = spec.long → other = spec) (absent : spec.absence = .nothing) :
    ∃ text ∈ texts, spec.NamedIn text := by
  obtain ⟨options, found, allowed⟩ := Option.bind_eq_some_iff.mp parsed
  split at allowed
  · cases allowed
    obtain ⟨option, mem, same⟩ := List.countP_pos_iff.mp (of_decide_eq_true has)
    replace same := of_decide_eq_true same
    rcases List.mem_append.mp mem with mem | mem
    · rcases named_of_mem_read found option mem with ⟨_, ⟨⟩, -⟩ | ⟨other, known, named, calls⟩
      rwa [only other known (named.trans same)] at calls
    · -- a usual value is one of another option
      obtain ⟨other, known, usual⟩ := List.mem_filterMap.mp mem
      split at usual
      next text absent' =>
        split at usual
        · cases usual
        · cases usual
          rw [only other known same, absent] at absent'
          cases absent'
      next => cases usual
      next => cases usual
  · cases allowed

end Arguments

/-! ## programs -/

variable {texts : List String}

namespace Replay

/-- What the options say where a request is made. -/
structure Request.Of (request : Request) (given : Arguments) : Prop where
  helpless : given.has "help" = false
  inputDir : given.optional "input-dir" Arguments.path? = some (some request.inputDir)
  group : given.value "group-id" Arguments.group? = some request.config.group
  start : given.value "start" Arguments.word? = some request.config.start
  stop : given.optional "end" Arguments.word? = some request.config.stop
  entryType : given.optional "entry-type" EntryType.parse = some request.entryType
  step : given.value "step" Arguments.word? = some request.step
  outputDir : given.optional "output-dir" Arguments.path? = some request.outputDir
  records : given.has "records" = request.records
  quiet : given.has "quiet" = request.quiet
  /-- Records are neither delayed nor written. -/
  alone : request.records → request.entryType = none ∧ request.outputDir = none

/-- **What is asked for is what the options say.** -/
theorem of_asked {what : Asked Request} (asked : asked? texts = some what) :
    ∃ given, Arguments.parse specs texts = some given ∧
      match what with
      | .help => given.has "help"
      | .request request => request.Of given := by
  simp only [asked?, Option.bind_eq_bind, Option.bind_eq_some_iff] at asked
  obtain ⟨given, parsed, inputDir?, input, group, group', start, start', stop, stop', entryType,
    entryType', step, step', outputDir, output, asked⟩ := asked
  refine ⟨given, parsed, ?_⟩
  split at asked
  next help =>
    cases asked
    exact help
  next helpless =>
    split at asked
    · cases asked
    next alone =>
      obtain ⟨inputDir, rfl, rfl⟩ := Option.map_eq_some_iff.mp asked
      refine ⟨Bool.eq_false_iff.mpr helpless, input, group', start', stop', entryType', step', output,
        rfl, rfl, fun records => ?_⟩
      replace records : given.has "records" = true := records
      rw [records, Bool.true_and, Bool.or_eq_true, not_or] at alone
      exact ⟨Option.not_isSome_iff_eq_none.mp alone.1, Option.not_isSome_iff_eq_none.mp alone.2⟩

/-- A request is made just where the options say it. -/
theorem made_iff {request : Request} : Request.ofArguments? texts = some request ↔
    ∃ given, Arguments.parse specs texts = some given ∧ request.Of given := by
  refine ⟨fun made => ?_, ?_⟩
  · obtain ⟨what, asked, same⟩ := Option.bind_eq_some_iff.mp made
    cases what with
    | help => cases same
    | request other =>
      cases same
      exact of_asked asked
  · rintro ⟨given, parsed, h⟩
    have alone : ¬ (given.has "records" && (request.entryType.isSome || request.outputDir.isSome)) := by
      rw [h.records]
      intro both
      obtain ⟨records, other⟩ := Bool.and_eq_true_iff.mp both
      rw [(h.alone records).1, (h.alone records).2] at other
      cases other
    rw [Request.ofArguments?, asked?, parsed]
    simp only [Option.bind_eq_bind, Option.bind_some, h.inputDir, h.group, h.start, h.stop, h.entryType,
      h.step, h.outputDir, h.helpless, Bool.false_eq_true, if_false, if_neg alone]
    rw [h.records, h.quiet]
    rfl

/-- A run with a request answers it. -/
theorem run_of_request {request : Request} (made : Request.ofArguments? texts = some request)
    (tree : FileTree) : run texts tree = answer request tree := by
  obtain ⟨what, asked, same⟩ := Option.bind_eq_some_iff.mp made
  cases what with
  | help => cases same
  | request other =>
    cases same
    rw [run, asked]

/-- Help is only told where an argument asks for it. -/
theorem exists_named_of_help (asked : asked? texts = some .help) :
    ∃ text ∈ texts, OptionSpec.asksHelp.NamedIn text := by
  obtain ⟨given, parsed, help⟩ := of_asked asked
  exact Arguments.exists_named_of_has parsed help (by decide) rfl

end Replay

namespace Generate

/-- Help is only told where an argument asks for it. -/
theorem exists_named_of_help (asked : asked? texts = some .help) :
    ∃ text ∈ texts, OptionSpec.asksHelp.NamedIn text := by
  simp only [asked?, Option.bind_eq_bind, Option.bind_eq_some_iff] at asked
  obtain ⟨given, parsed, _, -, _, -, _, -, _, -, _, -, _, -, asked⟩ := asked
  split at asked
  next help => exact Arguments.exists_named_of_has parsed help (by decide) rfl
  next =>
    obtain ⟨_, -, made⟩ := Option.map_eq_some_iff.mp asked
    cases made

end Generate

end RaftJournal
