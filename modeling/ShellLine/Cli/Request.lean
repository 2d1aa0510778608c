/-!
# Cli/Request — what the command line is asked to do

Reading arguments is the business of a library.  What comes of it is a plan: the directory of the
project, if one is named, and what is asked for, if anything is.
-/

namespace ShellLine

/-- What the command line is asked to do. -/
inductive Request
  | tokens (line : List Char)
  | assignments (line : List Char)
  | parse (line : List Char) (strict : Bool)
  | decode (sequences : List (List Char))
  | edit (text : List Char) (cursor? : Option Int) (wordsLeft : Int)
  deriving DecidableEq

/-- What comes of reading arguments: they are of no use, they ask for help, or they ask for
something. -/
inductive Answer (α : Type)
  | misuse
  | help
  | done (a : α)
  deriving DecidableEq

/-- What to do: the directory of the project, if one is named, and what the arguments behind the name
of a request come to, if there is one. -/
structure Plan where
  directory? : Option (List Char)
  request? : Option (Answer Request)
  deriving DecidableEq

end ShellLine
