import DirList.Text.Printable
import DirList.Text.Decimal
import DirList.Text.Quoted
import DirList.Text.Numeral
import DirList.Time.Rounding
import DirList.Time.Stamp
import DirList.Time.Moment
import DirList.Time.Calendar
import DirList.Time.Label
import DirList.File.Mode
import DirList.File.Status
import DirList.Sorting.Search
import DirList.Sorting.Run
import DirList.Sorting.Merge
import DirList.Sorting.Basic
import DirList.Entry
import DirList.Config
import DirList.Error.System
import DirList.Error.Listing
import DirList.Error.Policy
import DirList.Order
import DirList.FileSystem.Path
import DirList.Schedule
import DirList.FileSystem.Node
import DirList.FileSystem.Call
import DirList.FileSystem.Tree
import DirList.Accounts
import DirList.Walk.Reading
import DirList.Walk.Basic
import DirList.Walk.Source
import DirList.Walk.Script
import DirList.Listing.Session
import DirList.Listing.Descriptor
import DirList.Layout.Cell
import DirList.Layout.Columns
import DirList.Layout.Stream
import DirList.Layout.Long
import DirList.Layout.Renderer
import DirList.Listing.Plan
import DirList.Listing.Run
import DirList.Listing.Paths
import DirList.CommandLine.Terminal
import DirList.CommandLine.Flag
import DirList.CommandLine.Arguments
import DirList.CommandLine.Program
import DirList.Text.UpperCase
import DirList.Layout.Upper
import DirList.FileSystem.Edit
import DirList.FileSystem.Inventory
import DirList.Main
import DirList.Proofs.Sorting.Permutation
import DirList.Proofs.Sorting.Mapping
import DirList.Proofs.Sorting.Neighbours
import DirList.Proofs.FileSystem.Wear
import DirList.Proofs.FileSystem.Resolution
import DirList.Proofs.Walk.Reading
import DirList.Proofs.Walk.Step
import DirList.Proofs.Walk.Client
import DirList.Proofs.Walk.Bracketing
import DirList.Proofs.Walk.Inheritance
import DirList.Proofs.Walk.Cycle
import DirList.Proofs.Walk.Ending
import DirList.Proofs.FileSystem.Calm
import DirList.Proofs.Walk.Uninterrupted
import DirList.Proofs.FileSystem.Nesting
import DirList.Proofs.Walk.Physical
import DirList.Proofs.Walk.Numbering
import DirList.Proofs.Walk.Skipping
import DirList.Proofs.Listing.Recursion
import DirList.Proofs.Walk.Description
import DirList.Proofs.Listing.Writing
import DirList.Proofs.Listing.Showing
import DirList.Proofs.Listing.Performing
import DirList.Proofs.Listing.Simulation
import DirList.Proofs.Listing.Trace
import DirList.Proofs.Listing.Leaving
import DirList.Proofs.Listing.Displaying
import DirList.Proofs.Listing.Following
import DirList.Proofs.Walk.Completeness
import DirList.Proofs.Listing.Reaching
import DirList.Proofs.Listing.Flat
import DirList.Proofs.Listing.Stopping
import DirList.Proofs.Listing.Taking
import DirList.Proofs.Listing.Accounting
import DirList.Proofs.Listing.Heading
import DirList.Proofs.Listing.Completing
import DirList.Proofs.Listing.Policies
import DirList.Proofs.Layout.Rows
import DirList.Proofs.Listing.Masking
import DirList.Proofs.Sorting.Stability
import DirList.Proofs.Listing.Transfer
import DirList.Proofs.Listing.Stages
import DirList.Proofs.Sorting.Siblings
import DirList.Proofs.Sorting.Grouping
import DirList.Proofs.Sorting.Yielding
import DirList.Proofs.Walk.Legible
import DirList.Proofs.Walk.Sparing
import DirList.Proofs.Listing.Comparison
import DirList.Proofs.Listing.Sparing
import DirList.Proofs.FileSystem.Agreement
import DirList.Proofs.Walk.Reordering
import DirList.Proofs.Listing.Reordering
import DirList.Proofs.Layout.Endings
import DirList.Proofs.Walk.Naming
import DirList.Proofs.Listing.Blocks
import DirList.Proofs.Listing.Arranging
import DirList.Proofs.Listing.Backing
import DirList.Proofs.Listing.Logging
import DirList.Proofs.Listing.Recording
import DirList.Proofs.Listing.Measuring
import DirList.Proofs.Listing.Fitting
import DirList.Proofs.Layout.Arrangement
import DirList.Proofs.Walk.Agreement
import DirList.Proofs.FileSystem.Veiling
import DirList.Proofs.Walk.Veiling
import DirList.Proofs.Listing.Veiling
import DirList.Proofs.CommandLine.Flags
import DirList.Proofs.CommandLine.Consistency
import DirList.Proofs.Walk.Linkless
import DirList.Proofs.Listing.Linkless
import DirList.Proofs.Listing.Resuming
import DirList.Proofs.Listing.Series
import DirList.Proofs.Layout.Tabs
import DirList.Proofs.Layout.Breaks
import DirList.Proofs.Layout.Fields
import DirList.Proofs.Layout.Devices
import DirList.Proofs.Time.Dates
import DirList.Proofs.Time.Rounding
import DirList.Proofs.Time.Telling
import DirList.Proofs.Time.Seconds
import DirList.Proofs.Listing.Querying
import DirList.Proofs.Listing.Holding
import DirList.Proofs.Listing.Beside
import DirList.Proofs.Listing.Exhausting
