import Litefunctions.WorkflowImages

/-!
# References of pushed images

The operator and the two workflows each write the references of images.  The
workflow for GitHub never writes the one of a Deployment.  The workflow for
Gitea does, but only for the first file of a language that a push changed.
-/

namespace Litefunctions

namespace Workflow

open PathText

variable {runner : Runner} {env : Env} {cfg : Settings} {push : Push} {function : Function}

/-! ### References -/

theorem runtimeImage_eq (changes : push.Changes function) :
    runtimeImage cfg function =
      Gitea.latestTag ⟨cfg.registry, cfg.vcsUser⟩ push function.content.language function.key.name := by
  unfold runtimeImage Gitea.latestTag
  rw [← changes.project]
  rcases changes.compiled with isGo | isRust
  · rw [isGo]
    rfl
  · rw [isRust]
    rfl

/-- The tag of a commit is another one than `latest`. -/
theorem withSha_ne_withLatest (push : Push) (first second : String) :
    first ++ ":" ++ push.sha ≠ second ++ ":latest" := by
  intro same
  have lastChars := congrArg (fun text : String => text.toList.getLast?) same
  have latestEnds : (second ++ ":latest").toList.getLast? = some 't' := by simp
  simp only [latestEnds] at lastChars
  rw [String.toList_append, String.toList_append] at lastChars
  have member := List.mem_of_getLast? lastChars
  rcases List.mem_append.mp member with inFirst | inSha
  · rw [List.getLast?_append] at lastChars
    cases shaEnds : push.sha.toList.getLast? with
    | none => simp [shaEnds] at lastChars
    | some char =>
        rw [shaEnds, Option.some_or] at lastChars
        rw [Option.some.inj lastChars] at shaEnds
        exact absurd (push.hexadecimal _ (List.mem_of_getLast? shaEnds)) (by decide)
  · exact absurd (push.hexadecimal _ inSha) (by decide)

theorem shaTag_ne_latestTag (push : Push) (language other file name : String) :
    Gitea.shaTag env push language file ≠ Gitea.latestTag env push other name :=
  withSha_ne_withLatest push _ _

/-- References of compiled functions are distinct. -/
theorem latestTag_inj {language other file name : String}
    (compiled : language = "go" ∨ language = "rust") (otherCompiled : other = "go" ∨ other = "rust")
    (same : Gitea.latestTag env push language file = Gitea.latestTag env push other name) :
    language = other ∧ file = name := by
  have sameChars := congrArg String.toList same
  simp only [Gitea.latestTag, toString, String.toList_append, List.append_assoc,
    List.append_cancel_left_eq] at sameChars
  rcases compiled with rfl | rfl
  all_goals rcases otherCompiled with rfl | rfl
  all_goals simp at sameChars
  all_goals exact ⟨rfl, String.toList_injective sameChars⟩

/-! ### GitHub -/

/-- A text with a slash right after the name of the repository is no text that
has more before the first slash. -/
theorem slash_ne (push : Push) (start rest other : List Char) (noSlash : '/' ∉ start)
    (nonempty : start ≠ []) :
    push.repo.toList ++ '/' :: rest ≠ start ++ push.repo.toList ++ other := by
  intro same
  have before := congrArg (List.takeWhile (· ≠ '/')) same
  have plain : ∀ char ∈ push.repo.toList, decide (char ≠ '/') = true := by
    intro char member
    exact decide_eq_true fun isSlash => push.oneName (isSlash ▸ member)
  have startPlain : ∀ char ∈ start, decide (char ≠ '/') = true := by
    intro char member
    exact decide_eq_true fun isSlash => noSlash (isSlash ▸ member)
  rw [List.takeWhile_append_of_pos plain, List.append_assoc,
    List.takeWhile_append_of_pos startPlain, List.takeWhile_append_of_pos plain] at before
  have lengths := congrArg List.length before
  have positive := List.length_pos_of_ne_nil nonempty
  simp at lengths
  omega

theorem github_rust_ne {language file name : String}
    (compiled : language = "go" ∨ language = "rust") :
    s!"{env.registry}/{env.owner}/{push.repo}/runtime-rust-{file}:latest" ≠
      Gitea.latestTag env push language name := by
  intro same
  have sameChars := congrArg String.toList same
  simp only [Gitea.latestTag, toString, String.toList_append, List.append_assoc,
    List.append_cancel_left_eq] at sameChars
  have split : push.repo.toList ++ '/' :: ("runtime-rust-".toList ++ (file.toList ++ ":latest".toList)) =
      ("runtime-".toList ++ language.toList ++ "-".toList) ++ push.repo.toList ++
        ("-".toList ++ (name.toList ++ ":latest".toList)) := by
    simpa using sameChars
  refine slash_ne push _ _ _ ?_ (by simp) split
  rcases compiled with rfl | rfl
  · decide
  · decide

/-- The workflow for GitHub pushes nothing under the reference of a Deployment. -/
theorem github_pushes_other (changes : push.Changes function) :
    runtimeImage cfg function ∉ pushedImages runner ⟨cfg.registry, cfg.vcsUser⟩ push .github := by
  rw [runtimeImage_eq changes]
  intro member
  rcases List.mem_append.mp member with inRust | inGo
  · unfold GitHub.buildRust at inRust
    split at inRust
    · obtain ⟨file, -, pushed⟩ := List.mem_flatMap.mp inRust
      unfold GitHub.buildAndPush at pushed
      split at pushed
      · exact github_rust_ne changes.compiled (List.mem_singleton.mp pushed).symm
      · cases pushed
    · cases inRust
  · unfold GitHub.buildGo at inGo
    split at inGo
    · obtain ⟨file, -, pushed⟩ := List.mem_flatMap.mp inGo
      split at pushed
      · unfold GitHub.buildAndPush at pushed
        split at pushed
        · exact withSha_ne_withLatest push _ _ (List.mem_singleton.mp pushed).symm
        · cases pushed
      · cases pushed
    · cases inGo

/-! ### Gitea -/

section Gitea

variable {language file image : String} {patterns files : List String}
variable {sources : String → List String}

/-- What a job of the Gitea workflow pushes. -/
theorem mem_buildFirst
    (pushed : image ∈ Gitea.buildFirst runner env push language patterns files sources) :
    ∃ file, files.head? = some file ∧ file ≠ "null" ∧
      runner.isReference (Gitea.latestTag env push language file) = true ∧
      runner.isReference (Gitea.shaTag env push language file) = true ∧
      runner.builds language file push = true ∧
      (image = Gitea.latestTag env push language file ∨
        image = Gitea.shaTag env push language file) := by
  unfold Gitea.buildFirst at pushed
  split at pushed
  · split at pushed
    · cases pushed
    · next file isFirst =>
        split at pushed
        · cases pushed
        · next notNull =>
            split at pushed
            · split at pushed
              · next accepted =>
                  simp only [Bool.and_eq_true] at accepted
                  obtain ⟨⟨latest, commit⟩, builds⟩ := accepted
                  exact ⟨file, isFirst, notNull, latest, commit, builds, by simpa using pushed⟩
              · cases pushed
            · cases pushed
  · cases pushed

theorem latestTag_mem_buildFirst (found : runner.pathsFilter patterns push = true)
    (isFirst : files.head? = some file) (notNull : file ≠ "null")
    (hasSource : (sources file).any push.hasFile = true)
    (latest : runner.isReference (Gitea.latestTag env push language file) = true)
    (commit : runner.isReference (Gitea.shaTag env push language file) = true)
    (builds : runner.builds language file push = true) :
    Gitea.latestTag env push language file ∈
      Gitea.buildFirst runner env push language patterns files sources := by
  simp [Gitea.buildFirst, found, isFirst, notNull, hasSource, latest, commit, builds]

/-- A job that pushes the reference of a function has found the function first. -/
theorem of_mem_buildFirst {name other : String} (compiled : language = "go" ∨ language = "rust")
    (otherCompiled : other = "go" ∨ other = "rust")
    (pushed : Gitea.latestTag env push other name ∈
      Gitea.buildFirst runner env push language patterns files sources) :
    language = other ∧ files.head? = some name ∧ name ≠ "null" ∧
      runner.isReference (Gitea.latestTag env push other name) = true ∧
      runner.isReference (Gitea.shaTag env push other name) = true ∧
      runner.builds other name push = true := by
  obtain ⟨file, isFirst, notNull, latest, commit, builds, same | same⟩ := mem_buildFirst pushed
  · obtain ⟨rfl, rfl⟩ := latestTag_inj otherCompiled compiled same
    exact ⟨rfl, isFirst, notNull, latest, commit, builds⟩
  · exact absurd same.symm (shaTag_ne_latestTag push _ _ _ _)

end Gitea

/-- A changed function is found below the directory of its language. -/
theorem pathsFilter_of_changes (below : runner.FindsBelow) (changes : push.Changes function)
    {language : String} (isLanguage : function.content.language = language) (patterns : List String)
    (member : s!"functions/{language}/" ++ "**" ∈ patterns) :
    runner.pathsFilter patterns push = true := by
  apply below push patterns _ _ member changes.changed
  rw [← isLanguage, functionPath]
  simp [toString]

theorem gitea_pushes_iff (below : runner.FindsBelow) (changes : push.Changes function) :
    runtimeImage cfg function ∈ pushedImages runner ⟨cfg.registry, cfg.vcsUser⟩ push .gitea ↔
      (Gitea.files push function.content.language).head? = some function.key.name ∧
        function.key.name ≠ "null" ∧
        runner.isReference (runtimeImage cfg function) = true ∧
        runner.isReference (Gitea.shaTag ⟨cfg.registry, cfg.vcsUser⟩ push function.content.language
          function.key.name) = true ∧
        runner.builds function.content.language function.key.name push = true := by
  rw [runtimeImage_eq changes]
  constructor
  · intro pushed
    rcases List.mem_append.mp pushed with inGo | inRust
    · obtain ⟨isLanguage, rest⟩ := of_mem_buildFirst (.inl rfl) changes.compiled inGo
      rw [← isLanguage] at rest ⊢
      exact rest
    · obtain ⟨isLanguage, rest⟩ := of_mem_buildFirst (.inr rfl) changes.compiled inRust
      rw [← isLanguage] at rest ⊢
      exact rest
  · rintro ⟨isFirst, notNull, latest, commit, builds⟩
    have present := changes.present
    apply List.mem_append.mpr
    rcases changes.compiled with isGo | isRust
    · refine .inl ?_
      have found := pathsFilter_of_changes below changes isGo ["functions/go/**"] (by decide)
      rw [functionPath] at present
      rw [isGo] at isFirst latest commit builds present ⊢
      refine latestTag_mem_buildFirst found isFirst notNull ?_ latest commit builds
      rw [List.any_cons, Bool.or_eq_true]
      exact .inl present
    · refine .inr ?_
      have found := pathsFilter_of_changes below changes isRust
        ["functions/rs/**", "functions/rust/**"] (by decide)
      rw [functionPath] at present
      rw [isRust] at isFirst latest commit builds present ⊢
      refine latestTag_mem_buildFirst found isFirst notNull ?_ latest commit builds
      rw [List.any_cons, List.any_cons, Bool.or_eq_true, Bool.or_eq_true]
      exact .inr (.inl present)

/-- A workflow pushes the images of all changed functions, under the references
in their Deployments, exactly when the push is covered. -/
theorem pushesAll_iff (below : runner.FindsBelow) (cfg : Settings) (push : Push) (vendor : Vendor) :
    PushesAll runner cfg push vendor ↔ Covered runner cfg push vendor := by
  cases vendor with
  | github =>
      exact ⟨fun all function changes => github_pushes_other changes (all function changes),
        fun none function changes => absurd changes (none function)⟩
  | gitea =>
      exact forall_congr' fun function => forall_congr' fun changes => gitea_pushes_iff below changes

/-! ### Pushes of one function -/

theorem remove_ofList (part : String) (line : List Char) :
    remove part (String.ofList line) = String.ofList (removeFirst part.toList line) := by
  rw [remove, String.toList_ofList]

theorem removeExt_ofList (ext : String) (line : List Char) :
    removeExt ext (String.ofList line) = String.ofList (removeSuffix ext.toList line) := by
  rw [removeExt, String.toList_ofList]

/-- The name of a function is read back from the path of its file. -/
theorem goName_functionPath {name : String} (plain : ∀ char ∈ name.toList, isPlain char = true) :
    removeExt ".go" (remove "functions/go/"
      (String.ofList (quote (s!"functions/go/{name}.go").toList))) = name := by
  have path : (s!"functions/go/{name}.go").toList =
      "functions/go/".toList ++ (name.toList ++ ".go".toList) := by
    simp [toString]
  have allPlain : ∀ char ∈ "functions/go/".toList ++ (name.toList ++ ".go".toList),
      isPlain char = true := by
    intro char member
    simp only [List.mem_append] at member
    rcases member with isDirectory | isName | isExt
    · exact List.all_eq_true.mp (by decide : "functions/go/".toList.all isPlain = true) char isDirectory
    · exact plain char isName
    · exact List.all_eq_true.mp (by decide : ".go".toList.all isPlain = true) char isExt
  rw [path, quote_of_plain allPlain, remove_ofList, removeFirst_append _ _ (by decide),
    removeExt_ofList, removeSuffix_append, String.ofList_toList]

theorem rustName_functionPath {name : String} (plain : ∀ char ∈ name.toList, isPlain char = true)
    (absent : ¬ "functions/rs/".toList <:+: (s!"functions/rust/{name}.rs").toList) :
    removeExt ".rs" (remove "functions/rust/" (remove "functions/rs/"
      (String.ofList (quote (s!"functions/rust/{name}.rs").toList)))) = name := by
  have path : (s!"functions/rust/{name}.rs").toList =
      "functions/rust/".toList ++ (name.toList ++ ".rs".toList) := by
    simp [toString]
  have allPlain : ∀ char ∈ "functions/rust/".toList ++ (name.toList ++ ".rs".toList),
      isPlain char = true := by
    intro char member
    simp only [List.mem_append] at member
    rcases member with isDirectory | isName | isExt
    · exact List.all_eq_true.mp (by decide : "functions/rust/".toList.all isPlain = true) char isDirectory
    · exact plain char isName
    · exact List.all_eq_true.mp (by decide : ".rs".toList.all isPlain = true) char isExt
  rw [path] at absent ⊢
  rw [quote_of_plain allPlain, remove_ofList, removeFirst_of_not_infix absent, remove_ofList,
    removeFirst_append _ _ (by decide), removeExt_ofList, removeSuffix_append, String.ofList_toList]

/-- The Gitea workflow finds the function when a push changes nothing else. -/
theorem files_of_single (changes : push.Changes function) (known : push.hasBefore = true)
    (single : push.changed = [functionPath function]) (named : function.key.name ≠ "")
    (plain : ∀ char ∈ function.key.name.toList, isPlain char = true)
    (absent : ¬ "functions/rs/".toList <:+: (functionPath function).toList) :
    (Gitea.files push function.content.language).head? = some function.key.name := by
  rcases changes.compiled with isGo | isRust
  · have path : functionPath function = s!"functions/go/{function.key.name}.go" := by
      rw [functionPath, isGo]
      rfl
    have matched : matchesStar "functions/go/".toList ".go".toList (functionPath function).toList =
        true := by
      rw [path]
      simpa [toString] using
        matchesStar_append "functions/go/".toList function.key.name.toList ".go".toList
    have name := goName_functionPath plain
    rw [← path] at name
    simp only [Gitea.files, isGo, if_true, Gitea.goFiles, Push.diff, known, single, List.filter_cons,
      List.filter_nil, List.any_cons, List.any_nil, matched, Bool.or_false, List.map_cons, List.map_nil,
      name, ne_eq, named, not_false_eq_true, decide_true, List.head?_cons]
  · have path : functionPath function = s!"functions/rust/{function.key.name}.rs" := by
      rw [functionPath, isRust]
      rfl
    have matched : matchesStar "functions/rust/".toList ".rs".toList (functionPath function).toList =
        true := by
      rw [path]
      simpa [toString] using
        matchesStar_append "functions/rust/".toList function.key.name.toList ".rs".toList
    rw [path] at absent
    have name := rustName_functionPath plain absent
    rw [← path] at name
    simp only [Gitea.files, isRust, show ("rust" = "go") = False by decide, if_false, if_true,
      Gitea.rustFiles, Push.diff, known, single, List.filter_cons, List.filter_nil, List.any_cons,
      List.any_nil, matched, Bool.or_false, Bool.or_true, List.map_cons, List.map_nil, name, ne_eq,
      named, not_false_eq_true, decide_true, List.head?_cons]

/-! ### A push of two functions -/

/-- A runner that builds everything and finds what is below the directories. -/
def eagerRunner : Runner where
  pathsFilter patterns push := patterns.any fun pattern => push.changed.any fun path =>
    (pattern.toList.take (pattern.toList.length - 2)).isPrefixOf path.toList
  isReference _ := true
  builds _ _ _ := true

theorem eagerRunner_findsBelow : eagerRunner.FindsBelow := by
  intro push patterns directory path isPattern changed isPrefix
  refine List.any_eq_true.mpr ⟨_, isPattern, List.any_eq_true.mpr ⟨path, changed, ?_⟩⟩
  rw [List.isPrefixOf_iff_prefix]
  simpa using isPrefix

/-- A compiled function of the project `shop`. -/
def shopFunction (name : String) : Function :=
  ⟨⟨"default", name⟩, 1, ⟨true, false, .unset, "go", name, "", "shop", ""⟩⟩

/-- A push that changes these files of the project `shop`. -/
def shopPush (changed : List String) : Push where
  repo := "shop"
  oneName := by decide +kernel
  sha := "0a1b"
  hexadecimal char member := by
    have digits : ("0a1b".toList.all fun char => "0123456789abcdef".toList.contains char) = true := by
      decide +kernel
    exact List.contains_iff_mem.mp (List.all_eq_true.mp digits char member)
  hasBefore := true
  changed := changed
  hasFile path := changed.contains path

/-- Gitea pushes no image of the second function, GitHub none under the
reference of the Deployment. -/
theorem twoFunctions_not_pushesAll :
    ¬ PushesAll eagerRunner defaultSettings
        (shopPush ["functions/go/ship.go", "functions/go/total.go"]) .gitea ∧
      ¬ PushesAll eagerRunner defaultSettings (shopPush ["functions/go/total.go"]) .github := by
  constructor
  · intro all
    have changes : (shopPush ["functions/go/ship.go", "functions/go/total.go"]).Changes
        (shopFunction "total") := ⟨.inl rfl, rfl, by decide +kernel, by decide +kernel⟩
    exact absurd (all _ changes) (by decide +kernel)
  · intro all
    have changes : (shopPush ["functions/go/total.go"]).Changes (shopFunction "total") :=
      ⟨.inl rfl, rfl, by decide +kernel, by decide +kernel⟩
    exact absurd (all _ changes) (by decide +kernel)

theorem pushesAll_iff_shop :
    PushesAll eagerRunner defaultSettings (shopPush ["functions/go/total.go"]) .gitea := by
  apply (pushesAll_iff eagerRunner_findsBelow _ _ .gitea).mpr
  intro function changes
  have single := congrArg String.toList (List.mem_singleton.mp changes.changed)
  rcases changes.compiled with isGo | isRust
  · have isTotal : function.key.name = "total" := by
      apply String.toList_injective
      apply (List.append_cancel_right_eq _ ".go".toList _).mp
      simpa [functionPath, isGo, toString, show Language.langExt "go" = ".go" from rfl] using single
    rw [isGo, isTotal]
    exact ⟨by decide +kernel, by decide, rfl, rfl, rfl⟩
  · simp [functionPath, isRust, toString] at single

end Workflow

end Litefunctions
