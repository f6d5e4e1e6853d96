import Mustache.File.Tree
import Mustache.Main
import Mustache.Proofs.Config
import Mustache.Proofs.Expression.Spans
import Mustache.Proofs.Library
import Mustache.Proofs.Render.Constant
import Mustache.Proofs.Render.Dotted
import Mustache.Proofs.Render.Indentation
import Mustache.Proofs.Render.Inheritance
import Mustache.Proofs.Render.Markup
import Mustache.Proofs.Render.Pragmas
import Mustache.Proofs.Render.Separator
import Mustache.Proofs.Render.Termination
import Mustache.Proofs.Render.Transparent
import Mustache.Proofs.Render.Tree
import Mustache.Proofs.Render.Unused
import Mustache.Proofs.Template.Aligned
import Mustache.Proofs.Template.CommentLine
import Mustache.Proofs.Template.EmptyParent
import Mustache.Proofs.Template.FirstFault
import Mustache.Proofs.Template.Nesting
import Mustache.Proofs.Template.Neutral
import Mustache.Proofs.Template.Outline
import Mustache.Proofs.Template.Progress
import Mustache.Proofs.Template.Repeat
import Mustache.Proofs.Template.Replace
import Mustache.Proofs.Template.Reread
import Mustache.Proofs.Scanner.Session
import Mustache.Value.Same
import Mustache.Proofs.Unescape
import Mustache.Proofs.Place
import Mustache.Proofs.Sorting.Procedure
import Mustache.Proofs.Text.Order
import Mustache.Proofs.Double.OfInt
import Mustache.Proofs.Value.Numbers
