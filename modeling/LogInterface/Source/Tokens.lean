/-
# Source.Tokens -- the tokens of a declaration

`Tree.tokens` writes a tree as tokens again.  Written order is source order
with three exceptions: lifetimes come before the other generic parameters, a
`where` clause comes after everything else of a signature, and an attribute
inside a declaration stands at the start of its body.
-/
import LogInterface.Source.Tree

namespace LogInterface

set_option autoImplicit false

/-! ## Plain paths -/

def pathTokens (rooted : Bool) (path : List Ident) : List Token :=
  (if rooted then Token.operator "::" else [])
    ++ joinWith (Token.operator "::") (path.map fun i => [i.token])

/-! ## Lists -/

def keywordTokens (word : String) : Option Place → List Token
  | some p => [.ident word p]
  | none => []

/-- Items with a comma after each; only the last one may lack it. -/
def commaTokens : (trailing : Bool) → List (List Token) → List Token
  | _, [] => []
  | trailing, [x] => x ++ if trailing then Token.operator "," else []
  | trailing, x :: xs => x ++ Token.operator "," ++ commaTokens trailing xs

/-- Which members of a list with a comma after each have their comma. -/
def commaFlags (trailing : Bool) : Nat → List Bool
  | 0 => []
  | 1 => [trailing]
  | n + 1 => true :: commaFlags trailing n

/-- Members with or without their comma, and one put before each member that
follows one without. -/
def patchedCommas : (needed : Bool) → List (List Token × Bool) → List Token
  | _, [] => []
  | needed, (x, comma) :: rest =>
      (if needed then Token.operator "," else []) ++ x
        ++ (if comma then Token.operator "," else []) ++ patchedCommas (!comma) rest

/-! ## Trees -/

mutual

def Tree.tokens : Tree → List Token
  | .token t => [t]
  | .group d opens closes content => [.group d (treesTokens content) opens closes]
  | .node _ children => treesTokens children
  | .attribute a => a.tokens
  | .generics g => g.tokens
  | .signature s => s.tokens
  | .trait t => t.tokens

def treesTokens : List Tree → List Token
  | [] => []
  | t :: ts => t.tokens ++ treesTokens ts

def AttributeInput.tokens : AttributeInput → List Token
  | .nothing => []
  | .list d content opens closes => [.group d content opens closes]
  | .value e => Token.operator "=" ++ e.tokens

def Attribute.tokens : Attribute → List Token
  | ⟨inner, place, rooted, path, input⟩ =>
      [.punct '#' .alone place] ++ (if inner then Token.operator "!" else [])
        ++ [Token.wrap .bracket (pathTokens rooted path ++ input.tokens)]

/-- The tokens of the attributes in front of a declaration. -/
def outerTokens : List Attribute → List Token
  | [] => []
  | a :: as => (if a.inner then [] else a.tokens) ++ outerTokens as

/-- The tokens of the attributes inside a declaration. -/
def innerTokens : List Attribute → List Token
  | [] => []
  | a :: as => (if a.inner then a.tokens else []) ++ innerTokens as

def optionTokens : Option Tree → List Token
  | none => []
  | some t => t.tokens

/-- The tokens of each generic parameter, with its kind. -/
def paramsTokens : List GenericParam → List (ParamKind × List Token)
  | [] => []
  | ⟨kind, tree⟩ :: ps => (kind, tree.tokens) :: paramsTokens ps

/-- Generic parameters between angle brackets, lifetimes first. -/
def Generics.tokens : Generics → List Token
  | ⟨params, trailing⟩ =>
      match paramsTokens params with
      | [] => []
      | ps =>
          let flagged := ps.zip (commaFlags trailing ps.length)
          let (lifetimes, others) := flagged.partition fun p => p.1.1 = .lifetime
          Token.operator "<"
            ++ patchedCommas false ((lifetimes ++ others).map fun p => (p.1.2, p.2))
            ++ Token.operator ">"

def Receiver.tokens : Receiver → List Token
  | ⟨attributes, reference, lifetime, mutability, place, type⟩ =>
      outerTokens attributes
        ++ (match reference with
            | some p => Token.operatorAt p ['&'] ++ lifetime.tokens
            | none => [])
        ++ keywordTokens "mut" mutability ++ [.ident "self" place]
        ++ (match type with
            | some t => Token.operator ":" ++ t.tokens
            | none => [])

def Pattern.tokens : Pattern → List Token
  | .name i => [i.token]
  | .other t => t.tokens

def Input.tokens : Input → List Token
  | .receiver r => r.tokens
  | .typed attributes pattern type =>
      outerTokens attributes ++ pattern.tokens ++ Token.operator ":" ++ type.tokens

def inputsTokens : List Input → List (List Token)
  | [] => []
  | i :: is => i.tokens :: inputsTokens is

def Signature.tokens : Signature → List Token
  | ⟨constness, asyncness, unsafety, abi, keyword, name, generics, inputs, trailing, variadic,
      output, clause⟩ =>
      keywordTokens "const" constness ++ keywordTokens "async" asyncness
        ++ keywordTokens "unsafe" unsafety ++ optionTokens abi
        ++ [.ident "fn" keyword, name.token] ++ generics.tokens
        ++ [Token.wrap .parenthesis
              (commaTokens (trailing || (variadic.isSome && !inputs.isEmpty)) (inputsTokens inputs)
                ++ optionTokens variadic)]
        ++ (match output with
            | some t => Token.operator "->" ++ t.tokens
            | none => [])
        ++ optionTokens clause

def Method.tokens : Method → List Token
  | ⟨attributes, signature, body⟩ =>
      outerTokens attributes ++ signature.tokens
        ++ (match body with
            | some (.group d opens closes content) =>
                [.group d (innerTokens attributes ++ treesTokens content) opens closes]
            | some t => t.tokens
            | none => Token.operator ";")

def TraitItem.tokens : TraitItem → List Token
  | .method m => m.tokens
  | .other t => t.tokens

def itemsTokens : List TraitItem → List Token
  | [] => []
  | i :: is => i.tokens ++ itemsTokens is

def TraitDecl.tokens : TraitDecl → List Token
  | ⟨attributes, visibility, unsafety, auto, keyword, name, generics, supertraits, trailingPlus,
      clause, items⟩ =>
      outerTokens attributes ++ visibility.tokens ++ keywordTokens "unsafe" unsafety
        ++ keywordTokens "auto" auto ++ [.ident "trait" keyword, name.token] ++ generics.tokens
        ++ supertraitTokens trailingPlus supertraits
        ++ optionTokens clause
        ++ [Token.wrap .brace (innerTokens attributes ++ itemsTokens items)]

def supertraitTokens (trailingPlus : Bool) : List Tree → List Token
  | [] => []
  | t :: ts => Token.operator ":" ++ t.tokens ++ moreSupertraitTokens trailingPlus ts

/-- A plus sign before each further supertrait, and one at the end if it was written. -/
def moreSupertraitTokens (trailingPlus : Bool) : List Tree → List Token
  | [] => if trailingPlus then Token.operator "+" else []
  | t :: ts => Token.operator "+" ++ t.tokens ++ moreSupertraitTokens trailingPlus ts

end

def Tree.place (t : Tree) : Place :=
  match t.tokens with
  | first :: _ => first.place
  | [] => .nowhere

def SourceFile.tokens (f : SourceFile) : List Token :=
  f.attributes.flatMap Attribute.tokens ++ treesTokens f.items

end LogInterface
