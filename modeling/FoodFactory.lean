import FoodFactory.Store.Table
import FoodFactory.Store.Action
import FoodFactory.Store.Run
import FoodFactory.Store.Program
import FoodFactory.Store.Seen
import FoodFactory.Store.Discipline
import FoodFactory.Store.Announce
import FoodFactory.Route.Escape
import FoodFactory.Route.Pattern
import FoodFactory.Number.Binary64
import FoodFactory.Ruby.Value
import FoodFactory.Model.Schema
import FoodFactory.Model.Records
import FoodFactory.Model.WellFormed
import FoodFactory.Model.Destroy
import FoodFactory.Model.Ability
import FoodFactory.Service.JwtToken
import FoodFactory.Service.CreateOrder
import FoodFactory.Controller.Basic
import FoodFactory.Controller.Users
import FoodFactory.Controller.Hotels
import FoodFactory.Controller.Menus
import FoodFactory.Controller.Orders
import FoodFactory.Controller.Registrations
import FoodFactory.Controller.Sessions
import FoodFactory.Controller.Router
import FoodFactory.Controller.Routes
import FoodFactory.Controller.Steps
import FoodFactory.Controller.Moves
import FoodFactory.Job.UserMailer
import FoodFactory.Job.Seeds
import FoodFactory.Property.Integrity
import FoodFactory.Property.Privilege
import FoodFactory.Property.OrderAccess
import FoodFactory.Property.MenuOwnership
import FoodFactory.Property.Frame
import FoodFactory.Property.Totals
import FoodFactory.Property.Revocation
import FoodFactory.Property.Bearer
import FoodFactory.Property.HotelOwnership
import FoodFactory.Property.OrderMenus
import FoodFactory.Property.Cascade
import FoodFactory.Property.RoundTrip
import FoodFactory.Property.ConcurrentLogout
import FoodFactory.Property.Coercion
import FoodFactory.Property.Interleaving
import FoodFactory.Property.Authority
import FoodFactory.Property.ConcurrentOrders
import FoodFactory.Property.Answers
import FoodFactory.Property.Announced
import FoodFactory.Property.Seeding
import FoodFactory.Property.RevokedTokens
import FoodFactory.Property.Untouched
import FoodFactory.Property.Gone
import FoodFactory.Property.Routing
import FoodFactory.Property.Methods
