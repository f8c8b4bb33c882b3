import AibomWebhook.FlagSpelling
import AibomWebhook.GitUrl
import AibomWebhook.Library.PosixPath

/-! The clone that a command line runs in (postprocess/postprocess.py, `detect_git_clone_from_command`),
beside a shell that knows where each clone and the current directory are. -/

namespace AibomWebhook.CloneTracking
open FlagSpelling GitUrl PosixPath PyUrl

/-! The code. -/

/-- `_ASSIGNMENT_RE`. -/
def isAssignment : Token → Bool
  | c :: rest => (c.isAlpha || c == '_') && (rest.dropWhile fun d => d.isAlphanum || d == '_').head? = some '='
  | [] => false

def commandPrefixes : List Token := ["exec", "nohup", "env", "time", "sudo", "command"].map String.toList

/-- The words from `_command_start` on. -/
def commandWords (segment : List Token) : List Token :=
  segment.dropWhile fun word => isAssignment word || word ∈ commandPrefixes

def gitGlobalValueOpts : List Token := ["-C", "-c", "--git-dir", "--work-tree", "--namespace"].map String.toList

def gitCloneValueOpts : List Token := ["-b", "--branch", "-o", "--origin", "--depth", "--reference", "--reference-if-able",
  "-u", "--upload-pack", "--template", "-c", "--config", "--separate-git-dir", "--shallow-since", "--shallow-exclude", "-j",
  "--jobs", "--filter", "--server-option", "--bundle-uri", "--revision"].map String.toList

def gitNewBranchOpts : List Token := ["-b", "-B", "-c", "-C", "--orphan"].map String.toList

def gitUnpinnedRefs : List Token := ["HEAD", "FETCH_HEAD", "ORIG_HEAD", "-", "@"].map String.toList

def branchOpts : List Token := ["-b", "--branch"].map String.toList

/-- `tok.startswith("-")`. -/
def isOption (tok : Token) : Bool := tok.head? = some '-'

/-- The subcommand, its arguments and the `-C` directory. -/
def globalOptions (cdir : Option Path) : List Token → Option (Token × List Token × Option Path)
  | [] => none
  | tok :: rest =>
    if isOption tok then
      match rest with
      | [] => none
      | value :: later =>
        if tok ∈ gitGlobalValueOpts then
          globalOptions (if tok = ['-', 'C'] then some (join (cdir.getD []) value) else cdir) later
        else globalOptions cdir (value :: later)
    else some (tok, rest, cdir)

def gitInvocation (segment : List Token) : Option (Token × List Token × Option Path) :=
  match commandWords segment with
  | [] => none
  | word :: rest => if basename word = ['g', 'i', 't'] then globalOptions none rest else none

def positionals (valueOpts : List Token) (stopAtDashdash : Bool) : List Token → List Token
  | [] => []
  | a :: rest =>
    if a = ['-', '-'] then if stopAtDashdash then [] else rest
    else if isOption a ∧ a ≠ ['-'] then
      match rest with
      | [] => []
      | value :: later =>
        if a ∈ valueOpts then positionals valueOpts stopAtDashdash later
        else positionals valueOpts stopAtDashdash (value :: later)
    else a :: positionals valueOpts stopAtDashdash rest

/-- Whether a word is one of the flags, with `=` and a value or without. -/
def spells (flagNames : List Token) (tok : Token) : Bool :=
  if tok.take 2 = ['-', '-'] ∧ '=' ∈ tok then before '=' tok ∈ flagNames else tok ∈ flagNames

def findFlagValue (flagNames : List Token) : List Token → Option Token
  | [] => none
  | tok :: rest =>
    if spells flagNames tok then if tok.take 2 = ['-', '-'] ∧ '=' ∈ tok then some (after '=' tok) else rest.head?
    else findFlagValue flagNames rest

def cloneDirName (repo : Token) : Token :=
  let name := (repo.rdropWhile (· == '/')).rtakeWhile fun c => c != '/' && c != ':'
  if ['.', 'g', 'i', 't'] <:+ name then name.take (name.length - 4) else name

def usableRef (ref : Token) : Bool := ref ≠ [] && ref ∉ gitUnpinnedRefs && !hasUnexpandedVar ref

/-- `_COMMIT_SHA_RE`. -/
def isCommitSha (ref : Token) : Bool := ref.all isHexDigit && (7 ≤ ref.length && ref.length ≤ 40 || ref.length == 64)

def isCommitRef (ref : Token) : Bool := usableRef ref && isCommitSha ref && !ref.all Char.isDigit

structure Clone where
  repo : Token
  dir : Token
  commit : Option Token
  branch : Option Token

/-- The variables of the loop; `primary` is the position of a clone. -/
structure Tracker where
  clones : List Clone
  cwd : Option Path
  primary : Option Nat

def cloneAt (clones : List Clone) (path : Option Path) : Option Nat :=
  match path with
  | none => none
  | some path => if path = [] then none else clones.findIdx? fun c => c.dir = basename (normpath path)

def checkoutIn (args : List Token) (clone : Clone) : Clone :=
  let newBranch := (findFlagValue gitNewBranchOpts args).getD []
  let target := ((positionals gitNewBranchOpts true args).head?).getD []
  if newBranch ≠ [] then
    { clone with
      branch := if usableRef newBranch then some newBranch else none
      commit := if isCommitRef target then some target else none }
  else if target ≠ [] then
    { clone with
      commit := if isCommitRef target then some target else none
      branch := if usableRef target && !isCommitRef target then some target else none }
  else clone

def Tracker.clone (t : Tracker) (args : List Token) : Tracker :=
  match positionals gitCloneValueOpts false args with
  | [] => t
  | repo :: more =>
    if hasUnexpandedVar repo then t
    else { t with clones := t.clones ++ [{
      repo := repo
      dir := match more with
        | dir :: _ => basename (normpath dir)
        | [] => cloneDirName repo
      commit := none
      branch := (findFlagValue branchOpts args).filter usableRef }] }

def Tracker.checkout (t : Tracker) (args : List Token) (cdir : Option Path) : Tracker :=
  let entering := cdir.filter (· ≠ [])
  let place := match entering with
    | some dir => some (join (t.cwd.getD []) dir)
    | none => t.cwd
  match (cloneAt t.clones place).or (if t.clones.length = 1 then some 0 else none) with
  | none => t
  | some i =>
    { t with
      clones := t.clones.modify i (checkoutIn args)
      primary := if entering.isSome then some i else t.primary }

def Tracker.git (t : Tracker) (segment : List Token) : Tracker :=
  match gitInvocation segment with
  | none => t
  | some (sub, args, cdir) =>
    if sub = "clone".toList then t.clone args
    else if sub = "checkout".toList ∨ sub = "switch".toList then t.checkout args cdir
    else t

def Tracker.follow (t : Tracker) (segment : List Token) : Tracker :=
  match commandWords segment with
  | [] => t.git segment
  | word :: rest =>
    if word = ['c', 'd'] then
      let cwd := match rest with
        | [] => none
        | target :: _ => if target = ['-'] ∨ target = ['~'] then none else some (join (t.cwd.getD []) target)
      { t with cwd := cwd, primary := (cloneAt t.clones cwd).or t.primary }
    else t.git segment

structure Report where
  repository : List Char
  commit : Option Token
  branch : Option Token
  deriving DecidableEq

/-- A literal directory below the one it is read in. -/
structure Dir where
  text : Token
  named : text ≠ []
  down : Downward text
  argument : text.head? ≠ some '-'
  literal : text.head? ≠ some '~'

structure Url where
  text : Token
  argument : text.head? ≠ some '-'
  literal : hasUnexpandedVar text = false

structure Ref where
  text : Token
  named : text ≠ []
  argument : text.head? = some '-' → text = ['-']

structure NewBranch where
  text : Token
  named : text ≠ []

/-- An option of `git clone`; a cluster of short ones has no `b`. -/
inductive CloneOption where
  | branch (long : Bool) (value : Token)
  | branchEq (value : Token)
  | flag (tok : Token) (option : isOption tok = true) (alone : tok ≠ ['-'] ∧ tok ≠ ['-', '-'])
      (valueless : tok ∉ gitCloneValueOpts) (other : spells branchOpts tok = false)
      (short : tok.take 2 ≠ ['-', '-'] → 'b' ∉ tok)
  | valued (tok value : Token) (known : tok ∈ gitCloneValueOpts) (other : spells branchOpts tok = false)
      (apart : spells branchOpts value = false)

def CloneOption.tokens : CloneOption → List Token
  | .branch long value => [if long then "--branch".toList else "-b".toList, value]
  | .branchEq value => ["--branch=".toList ++ value]
  | .flag tok .. => [tok]
  | .valued tok value .. => [tok, value]

def CloneOption.branch? : CloneOption → Option Token
  | .branch _ value => some value
  | .branchEq value => some value
  | _ => none

inductive Command where
  | cd (dir : Dir)
  | clone (inside : Option Dir) (options : List CloneOption) (url : Url) (dir : Option Dir)
  | checkout (inside : Option Dir) (switch : Bool) (created : Option NewBranch) (ref : Ref)

def inTokens (inside : Option Dir) : List Token := (inside.map fun dir => [['-', 'C'], dir.text]).getD []

def Command.tokens : Command → List Token
  | .cd dir => [['c', 'd'], dir.text]
  | .clone inside options url dir => ['g', 'i', 't'] :: (inTokens inside ++ "clone".toList ::
      (options.flatMap CloneOption.tokens ++ url.text :: (dir.map Dir.text).toList))
  | .checkout inside switch created ref => ['g', 'i', 't'] :: (inTokens inside ++
      (if switch then "switch".toList else "checkout".toList) ::
        ((created.map fun new => [if switch then "-c".toList else "-b".toList, new.text]).getD [] ++ [ref.text]))

/-! The shell. -/

/-- A clone, with the directory's name as its command has it. -/
structure Worktree where
  path : List Path
  name : Path
  repository : Token
  commit : Option Token
  branch : Option Token

/-- Paths lead from the directory that the commands start in, which is left by the first `cd`; `entered` is the position
of a clone. -/
structure Shell where
  cwd : Option (List Path)
  worktrees : List Worktree
  entered : Option Nat

/-- The clone that a directory is in, which is looked for upwards; the path is in reverse. -/
def holdingUp (worktrees : List Worktree) : List Path → Option Nat
  | [] => worktrees.findIdx? fun tree => tree.path = []
  | last :: up => (worktrees.findIdx? fun tree => tree.path = (last :: up).reverse).or (holdingUp worktrees up)

def Shell.holding (s : Shell) (path : Option (List Path)) : Option Nat := holdingUp s.worktrees (path.getD []).reverse

/-- The directory that `-C` leads to. -/
def Shell.place (s : Shell) (inside : Option Dir) : Option (List Path) :=
  match inside with
  | some dir => some (s.cwd.getD [] ++ components dir.text)
  | none => s.cwd

def Shell.enter (s : Shell) (inside : Option Dir) : Option Nat :=
  if inside.isSome then (s.holding (s.place inside)).or s.entered else s.entered

/-- Where a clone goes, from where it is made. -/
def target (url : Url) (dir : Option Dir) : List Path :=
  match dir with
  | some dir => components dir.text
  | none => [cloneDirName url.text]

/-- The last directory of a path. -/
def lastName (path : List Path) : Path := path.getLastD ['.']

def Worktree.checkout (created : Option NewBranch) (ref : Ref) (tree : Worktree) : Worktree :=
  { tree with
    commit := if isCommitRef ref.text then some ref.text else none
    branch := match created with
      | some new => if usableRef new.text then some new.text else none
      | none => if usableRef ref.text && !isCommitRef ref.text then some ref.text else none }

def Shell.step (s : Shell) : Command → Shell
  | .cd dir => { s with cwd := s.place (some dir), entered := s.enter (some dir) }
  | .clone inside options url dir =>
    { s with
      worktrees := s.worktrees ++ [{
        path := (s.place inside).getD [] ++ target url dir
        name := lastName (target url dir)
        repository := url.text
        commit := none
        branch := (options.filterMap CloneOption.branch?).getLast?.filter usableRef }]
      entered := s.enter inside }
  | .checkout inside _ created ref =>
    match s.holding (s.place inside) with
    | none => s
    | some i => { s with worktrees := s.worktrees.modify i (Worktree.checkout created ref), entered := s.enter inside }

/-- Before the first command. -/
def Shell.start : Shell := { cwd := none, worktrees := [], entered := none }

def Shell.run (commands : List Command) : Shell := commands.foldl Shell.step Shell.start

/-- The clone that was entered last, or else the first one. -/
def Shell.report (nfkc : List Char → List Char) (s : Shell) : Option Report :=
  (s.worktrees[s.entered.getD 0]?).map fun tree =>
    { repository := redactGitUrl nfkc tree.repository, commit := tree.commit, branch := tree.branch }

/-! When a name tells a directory. -/

/-- The first clone with the name of a directory; where no command has named one, there is none. -/
def Shell.named (s : Shell) (path : Option (List Path)) : Option Nat :=
  path.bind fun path => s.worktrees.findIdx? fun tree => tree.name = lastName path

/-- By the name of its directory a `cd` leads to the clone that it leads to by its path, and so does a checkout, which may be
taken for one in the only clone. A clone is not made with `-C` from inside of another one than was entered last, and the
first and the last branch that it is given are one. -/
def Shell.Told (s : Shell) : Command → Prop
  | .cd dir => ((s.named (s.place (some dir))).or s.entered).getD 0 = (s.enter (some dir)).getD 0
  | .clone inside options _ _ =>
    s.entered.getD 0 = (s.enter inside).getD 0 ∧
      (options.filterMap CloneOption.branch?).head?.filter usableRef =
        (options.filterMap CloneOption.branch?).getLast?.filter usableRef
  | .checkout inside .. =>
    (s.named (s.place inside)).or (if s.worktrees.length = 1 then some 0 else none) = s.holding (s.place inside)

def Shell.ToldFrom (s : Shell) : List Command → Prop
  | [] => True
  | command :: rest => s.Told command ∧ (s.step command).ToldFrom rest

instance (s : Shell) : (command : Command) → Decidable (s.Told command)
  | .cd _ => inferInstanceAs (Decidable (_ = _))
  | .clone .. => inferInstanceAs (Decidable (_ ∧ _))
  | .checkout .. => inferInstanceAs (Decidable (_ = _))

instance decidableToldFrom (s : Shell) : (commands : List Command) → Decidable (s.ToldFrom commands)
  | [] => isTrue trivial
  | command :: rest => @instDecidableAnd _ _ inferInstance (decidableToldFrom (s.step command) rest)

/-! What the code reads of a command. -/

section Words
variable {valueOpts flagNames : List Token} {stop : Bool} {tok value : Token}

theorem positionals_flag (option : isOption tok = true) (alone : tok ≠ ['-'] ∧ tok ≠ ['-', '-']) (valueless : tok ∉ valueOpts)
    (rest : List Token) : positionals valueOpts stop (tok :: rest) = positionals valueOpts stop rest := by
  cases rest with
  | nil => simp [positionals, option, alone]
  | cons value later => rw [positionals, if_neg alone.2, if_pos ⟨option, alone.1⟩, if_neg valueless]

theorem positionals_value (option : isOption tok = true) (alone : tok ≠ ['-'] ∧ tok ≠ ['-', '-']) (known : tok ∈ valueOpts)
    (rest : List Token) : positionals valueOpts stop (tok :: value :: rest) = positionals valueOpts stop rest := by
  rw [positionals, if_neg alone.2, if_pos ⟨option, alone.1⟩]
  exact if_pos known

theorem positionals_argument (argument : isOption tok = true → tok = ['-']) (rest : List Token) :
    positionals valueOpts stop (tok :: rest) = tok :: positionals valueOpts stop rest := by
  have single : tok ≠ ['-', '-'] := by
    rintro rfl
    cases argument rfl
  have plain : ¬(isOption tok = true ∧ tok ≠ ['-']) := fun both => both.2 (argument both.1)
  cases rest with
  | nil => simp only [positionals, if_neg single, if_neg plain]
  | cons value later => rw [positionals, if_neg single, if_neg plain]

theorem findFlagValue_other (other : spells flagNames tok = false) (rest : List Token) :
    findFlagValue flagNames (tok :: rest) = findFlagValue flagNames rest := by
  rw [findFlagValue, other, if_neg Bool.false_ne_true]

theorem spells_argument (flags : ∀ flag ∈ flagNames, isOption flag = true) (argument : isOption tok = false) :
    spells flagNames tok = false := by
  have short : ¬(tok.take 2 = ['-', '-'] ∧ '=' ∈ tok) := by
    rintro ⟨dashes, _⟩
    rcases tok with _ | ⟨c, more⟩
    · cases dashes
    · rw [List.take_succ_cons, List.cons.injEq] at dashes
      rw [isOption, dashes.1] at argument
      exact absurd argument (by simp)
  rw [spells, if_neg short, decide_eq_false_iff_not]
  intro flag
  rw [flags tok flag] at argument
  cases argument

end Words

theorem cloneValueOpts_options : ∀ tok ∈ gitCloneValueOpts,
    isOption tok = true ∧ (tok ≠ ['-'] ∧ tok ≠ ['-', '-']) ∧ '=' ∉ tok := by
  have all : (gitCloneValueOpts.all fun tok =>
      isOption tok && decide (tok ≠ ['-']) && decide (tok ≠ ['-', '-']) && decide ('=' ∉ tok)) = true := by decide
  intro tok member
  have each := List.all_eq_true.mp all tok member
  simp only [Bool.and_eq_true, decide_eq_true_eq] at each
  exact ⟨each.1.1.1, ⟨each.1.1.2, each.1.2⟩, each.2⟩

theorem branchEq_option (value : Token) : isOption ("--branch=".toList ++ value) = true ∧
    ("--branch=".toList ++ value ≠ ['-'] ∧ "--branch=".toList ++ value ≠ ['-', '-']) ∧
    "--branch=".toList ++ value ∉ gitCloneValueOpts := by
  have long : 9 ≤ ("--branch=".toList ++ value).length := by
    rw [List.length_append]
    exact Nat.le_add_right _ _
  have marked : '=' ∈ "--branch=".toList ++ value := List.mem_append_left _ (by decide)
  refine ⟨rfl, ⟨fun same => ?_, fun same => ?_⟩, fun known => (cloneValueOpts_options _ known).2.2 marked⟩
  · rw [same] at long
    exact absurd long (by decide)
  · rw [same] at long
    exact absurd long (by decide)

theorem positionals_options (options : List CloneOption) (rest : List Token) :
    positionals gitCloneValueOpts false (options.flatMap CloneOption.tokens ++ rest) =
      positionals gitCloneValueOpts false rest := by
  induction options with
  | nil => rfl
  | cons option later ih =>
    rw [List.flatMap_cons, List.append_assoc]
    cases option with
    | branch long value => cases long <;> exact ih
    | branchEq value =>
      obtain ⟨dash, alone, valueless⟩ := branchEq_option value
      exact (positionals_flag dash alone valueless _).trans ih
    | flag tok dash alone valueless other short => exact (positionals_flag dash alone valueless _).trans ih
    | valued tok value known other apart =>
      obtain ⟨dash, alone, _⟩ := cloneValueOpts_options tok known
      exact (positionals_value dash alone known _).trans ih

/-- The first branch that an option names. -/
theorem findFlagValue_options (options : List CloneOption) (rest : List Token) :
    findFlagValue branchOpts (options.flatMap CloneOption.tokens ++ rest) =
      (options.filterMap CloneOption.branch?).head?.or (findFlagValue branchOpts rest) := by
  induction options with
  | nil => rfl
  | cons option later ih =>
    rw [List.flatMap_cons, List.append_assoc]
    cases option with
    | branch long value => cases long <;> rfl
    | branchEq value => rfl
    | flag tok dash alone valueless other short => exact (findFlagValue_other other _).trans ih
    | valued tok value known other apart =>
      exact (findFlagValue_other other _).trans ((findFlagValue_other apart _).trans ih)

theorem isOption_of_ne {tok : Token} (argument : tok.head? ≠ some '-') : isOption tok = false := decide_eq_false argument

theorem spells_branch_argument {tok : Token} (argument : tok.head? ≠ some '-') : spells branchOpts tok = false :=
  spells_argument (List.all_eq_true.mp (by decide)) (isOption_of_ne argument)

theorem clone_words (options : List CloneOption) (url : Url) (dir : Option Dir) :
    positionals gitCloneValueOpts false (options.flatMap CloneOption.tokens ++ url.text :: (dir.map Dir.text).toList) =
        url.text :: (dir.map Dir.text).toList ∧
      findFlagValue branchOpts (options.flatMap CloneOption.tokens ++ url.text :: (dir.map Dir.text).toList) =
        (options.filterMap CloneOption.branch?).head? := by
  have plain {tok : Token} (argument : tok.head? ≠ some '-') : isOption tok = true → tok = ['-'] := by
    intro option
    rw [isOption_of_ne argument] at option
    cases option
  rw [positionals_options, findFlagValue_options, positionals_argument (plain url.argument),
    findFlagValue_other (spells_branch_argument url.argument)]
  cases dir with
  | none => exact ⟨rfl, Option.or_none⟩
  | some dir =>
    have last : positionals gitCloneValueOpts false [dir.text] = [dir.text] := positionals_argument (plain dir.argument) []
    have unnamed : findFlagValue branchOpts [dir.text] = none := findFlagValue_other (spells_branch_argument dir.argument) []
    exact ⟨congrArg (url.text :: ·) last, (congrArg _ unnamed).trans Option.or_none⟩

/-- What a checkout does to a clone. -/
theorem checkoutIn_words (switch : Bool) (created : Option NewBranch) (ref : Ref) (clone : Clone) :
    checkoutIn ((created.map fun new => [if switch then "-c".toList else "-b".toList, new.text]).getD [] ++ [ref.text]) clone =
      { clone with
        commit := if isCommitRef ref.text then some ref.text else none
        branch := match created with
          | some new => if usableRef new.text then some new.text else none
          | none => if usableRef ref.text && !isCommitRef ref.text then some ref.text else none } := by
  have single : isOption ref.text = true → ref.text = ['-'] := fun option => ref.argument (of_decide_eq_true option)
  have target : positionals gitNewBranchOpts true [ref.text] = [ref.text] := positionals_argument single []
  cases created with
  | none =>
    have unnamed : spells gitNewBranchOpts ref.text = false := by
      cases option : isOption ref.text with
      | true =>
        rw [single option]
        decide
      | false => exact spells_argument (List.all_eq_true.mp (by decide)) option
    have found : findFlagValue gitNewBranchOpts [ref.text] = none := findFlagValue_other unnamed []
    simp only [Option.map_none, Option.getD_none, List.nil_append, checkoutIn, found, target, List.head?_cons,
      Option.getD_some, ne_eq, not_true_eq_false, if_false, ref.named, not_false_eq_true, if_true]
  | some new =>
    have words : ∀ flag : Token, flag = "-c".toList ∨ flag = "-b".toList →
        findFlagValue gitNewBranchOpts [flag, new.text, ref.text] = some new.text ∧
          positionals gitNewBranchOpts true [flag, new.text, ref.text] = positionals gitNewBranchOpts true [ref.text] := by
      rintro flag (rfl | rfl) <;> exact ⟨rfl, rfl⟩
    obtain ⟨found, skipped⟩ := words (if switch then "-c".toList else "-b".toList) (by cases switch <;> simp)
    simp only [Option.map_some, Option.getD_some, List.cons_append, List.nil_append, checkoutIn, found, skipped, target,
      List.head?_cons, ne_eq, new.named, not_false_eq_true, if_true]

/-! Commands as the loop reads them. -/

theorem gitInvocation_words (inside : Option Dir) {sub : Token} (command : isOption sub = false) (args : List Token) :
    gitInvocation (['g', 'i', 't'] :: (inTokens inside ++ sub :: args)) = some (sub, args, inside.map Dir.text) := by
  have words : commandWords (['g', 'i', 't'] :: (inTokens inside ++ sub :: args)) =
      ['g', 'i', 't'] :: (inTokens inside ++ sub :: args) := rfl
  have called : basename ['g', 'i', 't'] = ['g', 'i', 't'] := by decide
  have plain (cdir : Option Path) : globalOptions cdir (sub :: args) = some (sub, args, cdir) := by
    cases args <;> simp only [globalOptions, command, Bool.false_eq_true, if_false]
  rw [gitInvocation, words]
  dsimp only
  rw [if_pos called]
  cases inside with
  | none => exact plain none
  | some dir =>
    have below : join [] dir.text = dir.text := by rw [join, if_neg dir.down.relative, if_pos (Or.inl rfl), List.nil_append]
    have start : globalOptions none (['-', 'C'] :: dir.text :: sub :: args) =
        globalOptions (some (join [] dir.text)) (sub :: args) := rfl
    exact start.trans ((plain _).trans (by rw [below, Option.map_some]))

theorem follow_git (t : Tracker) (inside : Option Dir) {sub : Token} (command : isOption sub = false) (args : List Token) :
    t.follow (['g', 'i', 't'] :: (inTokens inside ++ sub :: args)) =
      if sub = "clone".toList then t.clone args
      else if sub = "checkout".toList ∨ sub = "switch".toList then t.checkout args (inside.map Dir.text) else t := by
  have dispatched : t.follow (['g', 'i', 't'] :: (inTokens inside ++ sub :: args)) =
      t.git (['g', 'i', 't'] :: (inTokens inside ++ sub :: args)) := rfl
  rw [dispatched, Tracker.git, gitInvocation_words inside command]

theorem follow_cd (t : Tracker) (dir : Dir) : t.follow (Command.cd dir).tokens =
    { t with
      cwd := some (join (t.cwd.getD []) dir.text)
      primary := (cloneAt t.clones (some (join (t.cwd.getD []) dir.text))).or t.primary } := by
  have dash : dir.text ≠ ['-'] := fun same => dir.argument (same ▸ rfl)
  have tilde : dir.text ≠ ['~'] := fun same => dir.literal (same ▸ rfl)
  have dispatched : t.follow (Command.cd dir).tokens =
      { t with
        cwd := if dir.text = ['-'] ∨ dir.text = ['~'] then none else some (join (t.cwd.getD []) dir.text)
        primary := (cloneAt t.clones
          (if dir.text = ['-'] ∨ dir.text = ['~'] then none else some (join (t.cwd.getD []) dir.text))).or t.primary } := rfl
  rw [dispatched, if_neg (not_or.mpr ⟨dash, tilde⟩)]

/-- The path that a checkout runs in, as the code has it. -/
def Tracker.place (t : Tracker) (inside : Option Dir) : Option Path :=
  match inside with
  | some dir => some (join (t.cwd.getD []) dir.text)
  | none => t.cwd

theorem follow_checkout (t : Tracker) (inside : Option Dir) (switch : Bool) (created : Option NewBranch) (ref : Ref) :
    t.follow (Command.checkout inside switch created ref).tokens =
      match (cloneAt t.clones (t.place inside)).or (if t.clones.length = 1 then some 0 else none) with
      | none => t
      | some i => { t with
          clones := t.clones.modify i (checkoutIn
            ((created.map fun new => [if switch then "-c".toList else "-b".toList, new.text]).getD [] ++ [ref.text]))
          primary := if inside.isSome then some i else t.primary } := by
  have command : isOption (if switch then "switch".toList else "checkout".toList) = false := by cases switch <;> rfl
  have other : ¬(if switch then "switch".toList else "checkout".toList) = "clone".toList := by cases switch <;> decide
  have either : (if switch then "switch".toList else "checkout".toList) = "checkout".toList ∨
      (if switch then "switch".toList else "checkout".toList) = "switch".toList := by
    cases switch
    · exact Or.inl rfl
    · exact Or.inr rfl
  rw [Command.tokens, follow_git t inside command, if_neg other, if_pos either, Tracker.checkout]
  cases inside with
  | none => rfl
  | some dir =>
    have entering : ((some dir).map Dir.text).filter (fun text => decide (text ≠ [])) = some dir.text := by
      rw [Option.map_some, Option.filter_some, if_pos (decide_eq_true dir.named)]
    simp only [entering]
    rfl

/-- The name that the code knows a clone by. -/
def recordedName (url : Url) : Option Dir → Token
  | some dir => basename (normpath dir.text)
  | none => cloneDirName url.text

theorem follow_clone (t : Tracker) (inside : Option Dir) (options : List CloneOption) (url : Url) (dir : Option Dir) :
    t.follow (Command.clone inside options url dir).tokens =
      { t with clones := t.clones ++ [{
          repo := url.text
          dir := recordedName url dir
          commit := none
          branch := (options.filterMap CloneOption.branch?).head?.filter usableRef }] } := by
  obtain ⟨arguments, named⟩ := clone_words options url dir
  rw [Command.tokens, follow_git t inside rfl, if_pos rfl, Tracker.clone, arguments, named]
  dsimp only
  rw [url.literal, if_neg Bool.false_ne_true]
  cases dir <;> rfl

/-! Where the shell is, by the code's names. -/

def Worktree.recorded (tree : Worktree) : Clone :=
  { repo := tree.repository, dir := tree.name, commit := tree.commit, branch := tree.branch }

structure Follows (t : Tracker) (s : Shell) : Prop where
  cwd : t.cwd.map components = s.cwd
  down : Downward (t.cwd.getD [])
  named : t.cwd ≠ some []
  clones : t.clones = s.worktrees.map Worktree.recorded
  primary : t.primary.getD 0 = s.entered.getD 0

theorem map_modify {α β : Type} {f : α → β} {g : β → β} {h : α → α} (same : ∀ x, f (h x) = g (f x)) (items : List α)
    (i : Nat) : (items.modify i h).map f = (items.map f).modify i g := by
  induction items generalizing i with
  | nil => cases i <;> rfl
  | cons item later ih =>
    cases i with
    | zero => simp [same]
    | succ n => simp [ih]

section Steps
variable {t : Tracker} {s : Shell} (follows : Follows t s)
include follows

theorem Follows.place (inside : Option Dir) : (t.place inside).map components = s.place inside ∧
    Downward ((t.place inside).getD []) ∧ t.place inside ≠ some [] := by
  cases inside with
  | none => exact ⟨follows.cwd, follows.down, follows.named⟩
  | some dir =>
    have before : components (t.cwd.getD []) = s.cwd.getD [] := by
      rw [← follows.cwd]
      cases t.cwd <;> rfl
    refine ⟨?_, follows.down.join dir.down, fun empty => join_ne_nil _ dir.named (Option.some.inj empty)⟩
    rw [Tracker.place, Option.map_some, components_join dir.down.relative, before]
    rfl

/-- The code looks for the clone by its name. -/
theorem Follows.cloneAt_place (inside : Option Dir) : cloneAt t.clones (t.place inside) = s.named (s.place inside) := by
  obtain ⟨place, down, named⟩ := follows.place inside
  rw [← place]
  cases here : t.place inside with
  | none => rfl
  | some path =>
    rw [here] at down named
    have filled : path ≠ [] := fun empty => named (congrArg some empty)
    have last : basename (normpath path) = lastName (components path) := basename_normpath down
    rw [cloneAt, if_neg filled, follows.clones, List.findIdx?_map, last]
    rfl

theorem Follows.cd (dir : Dir) (told : s.Told (.cd dir)) :
    Follows (t.follow (Command.cd dir).tokens) (s.step (.cd dir)) := by
  obtain ⟨place, down, named⟩ := follows.place (some dir)
  rw [follow_cd]
  refine { follows with cwd := place, down := down, named := named, primary := ?_ }
  calc ((cloneAt t.clones (t.place (some dir))).or t.primary).getD 0
      = ((s.named (s.place (some dir))).or s.entered).getD 0 := by
        rw [follows.cloneAt_place, Option.getD_or, Option.getD_or, follows.primary]
    _ = (s.enter (some dir)).getD 0 := told

theorem Follows.checkout (inside : Option Dir) (switch : Bool) (created : Option NewBranch) (ref : Ref)
    (told : s.Told (.checkout inside switch created ref)) :
    Follows (t.follow (Command.checkout inside switch created ref).tokens) (s.step (.checkout inside switch created ref)) := by
  have length : t.clones.length = s.worktrees.length := by rw [follows.clones, List.length_map]
  have chosen : (cloneAt t.clones (t.place inside)).or (if t.clones.length = 1 then some 0 else none) =
      s.holding (s.place inside) := by
    rw [follows.cloneAt_place, length]
    exact told
  rw [follow_checkout, Shell.step, chosen]
  cases found : s.holding (s.place inside) with
  | none => exact follows
  | some i =>
    have same (tree : Worktree) : (tree.checkout created ref).recorded =
        checkoutIn ((created.map fun new => [if switch then "-c".toList else "-b".toList, new.text]).getD [] ++ [ref.text])
          tree.recorded := (checkoutIn_words switch created ref tree.recorded).symm
    refine { follows with clones := ?_, primary := ?_ }
    · rw [follows.clones]
      exact (map_modify same s.worktrees i).symm
    · cases inside with
      | none => exact follows.primary
      | some dir =>
        have entered : s.enter (some dir) = some i := by
          rw [Shell.enter, Option.isSome_some, if_pos rfl, found, Option.some_or]
        rw [entered]
        rfl

theorem Follows.clone (inside : Option Dir) (options : List CloneOption) (url : Url) (dir : Option Dir)
    (told : s.Told (.clone inside options url dir)) :
    Follows (t.follow (Command.clone inside options url dir).tokens) (s.step (.clone inside options url dir)) := by
  obtain ⟨outside, branch⟩ := told
  have written : recordedName url dir = lastName (target url dir) := by
    cases dir with
    | none => rfl
    | some dir => exact basename_normpath dir.down
  rw [follow_clone, written, branch]
  refine { follows with clones := ?_, primary := follows.primary.trans outside }
  change t.clones ++ _ = (s.worktrees ++ [_]).map Worktree.recorded
  rw [List.map_append, ← follows.clones]
  rfl

/-- One command. -/
theorem Follows.step (command : Command) (told : s.Told command) : Follows (t.follow command.tokens) (s.step command) := by
  cases command with
  | cd dir => exact follows.cd dir told
  | clone inside options url dir => exact follows.clone inside options url dir told
  | checkout inside switch created ref => exact follows.checkout inside switch created ref told

end Steps

theorem Follows.run {t : Tracker} {s : Shell} (follows : Follows t s) (commands : List Command) (told : s.ToldFrom commands) :
    Follows ((commands.map Command.tokens).foldl Tracker.follow t) (commands.foldl Shell.step s) := by
  induction commands generalizing t s with
  | nil => exact follows
  | cons command rest ih => exact ih (follows.step command told.1) told.2

def release : Ref := ⟨"v2".toList, by decide, by decide⟩

def source : Dir := ⟨"src".toList, by decide, ⟨by decide, by decide⟩, by decide, by decide⟩

end AibomWebhook.CloneTracking
