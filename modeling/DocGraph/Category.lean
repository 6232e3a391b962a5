import DocGraph.Rule.Special

/-! Categories: what kinds of symbols there are, and which rules and tags each has. -/

namespace DocGraph

open Rule

/-- A kind of symbols. -/
structure Category where
  name : String
  /-- The rules that fill in a record of the category, in order. -/
  rules : Named DocRule
  /-- The tags that the category understands. -/
  tags : List String

namespace Category

/-- The shared rules behind one for the kind, with further rules set in order. -/
def compose (kind : String) (special : Named DocRule) : Named DocRule :=
  Named.putAll (("kind", kindRule kind) :: sharedRules) special

/-- The rules of what a module declares. -/
def moduleRules : Named DocRule :=
  [("memberof", memberofFileRule), ("export", exportRule), ("import_path", importPathRule),
    ("import_style", importStyleRule)]

/-- The rules of what can be called. -/
def callableRules : Named DocRule := [("callable_flags", callableFlagsRule)]

/-- The rules of files. -/
def fileRules : Named DocRule :=
  [("name", fileNameRule), ("memberof", noMemberofRule), ("longname", nameAsLongnameRule),
    ("content", contentRule), ("undocument", documentedRule)]

/-- The rules of classes, beside those of what a module declares. -/
def classRules : Named DocRule :=
  [("extends", extendsRule), ("implements", implementsRule), ("interface", interfaceRule)]

/-- The tags of classes, beside the shared ones. -/
def classTags : List String := ["@extends", "@extend", "@implements", "@implement", "@interface"]

/-- Source files. -/
def file : Category := ⟨"File", compose "file" fileRules, sharedTags⟩

/-- Source files of tests. -/
def testFile : Category := ⟨"TestFile", compose "testFile" fileRules, sharedTags⟩

/-- Sources that are held in memory; all of them have one name. -/
def memory : Category :=
  ⟨"Memory", compose "memory" (fileRules ++ [("name", memoryNameRule)]), sharedTags⟩

/-- Classes. -/
def classes : Category :=
  ⟨"Class", compose "class" (moduleRules ++ classRules), sharedTags ++ classTags⟩

/-- Functions of a module. -/
def function : Category :=
  ⟨"Function", compose "function" (moduleRules ++ callableRules), sharedTags⟩

/-- Variables of a module. -/
def «variable» : Category := ⟨"Variable", compose "variable" moduleRules, sharedTags⟩

/-- Assignments in a module; they count as variables. -/
def assignment : Category := ⟨"Assignment", compose "variable" moduleRules, sharedTags⟩

/-- Members of a class. -/
def member : Category :=
  ⟨"ClassMember", compose "member" [("memberof", memberofOwnerRule)], sharedTags⟩

/-- Properties of a class; they count as members. -/
def property : Category :=
  ⟨"ClassProperty", compose "member" [("memberof", memberofOwnerRule)], sharedTags⟩

/-- Methods of a class. -/
def method : Category :=
  ⟨"ClassMethod",
    compose "method" ([("memberof", memberofOwnerRule), ("qualifier", methodQualifierRule)] ++
      callableRules),
    sharedTags⟩

/-- Types that a comment defines. -/
def typedef : Category :=
  ⟨"Typedef",
    compose "typedef" [("memberof", memberofFileRule), ("name", typedefNameRule),
      ("typedef", typedefRule)],
    sharedTags ++ ["@typedef"]⟩

/-- Things outside the project that a comment names. -/
def «external» : Category :=
  ⟨"External",
    compose "external" [("memberof", memberofFileRule), ("name", externalNameRule),
      ("longname", nameAsLongnameRule)],
    sharedTags ++ ["@external"]⟩

/-- Tests. -/
def test : Category :=
  ⟨"Test",
    compose "test" [("memberof", testMemberofRule), ("name", testNameRule),
      ("test_targets", testTargetsRule)],
    sharedTags ++ ["@test", "@testTarget"]⟩

/-- All categories. -/
def all : List Category :=
  [file, testFile, memory, classes, function, «variable», assignment, member, property, method,
    typedef, «external», test]

/-- The category of a name. -/
def find? (name : String) : Option Category := all.find? fun c => c.name = name

/-- The words for a name that is no category. -/
def unknownMessage (name : String) : String :=
  "Unknown symbol category '" ++ name ++ "' (expected one of: " ++
    Text.joined ", " (Text.sorted (all.map Category.name)) ++ ")"

/-- The rules of the category in a scope. -/
def registry (c : Category) (scope : Scope) : Registry Draft Failure :=
  c.rules.map fun r => (r.1, r.2.inScope scope)

end Category

end DocGraph
